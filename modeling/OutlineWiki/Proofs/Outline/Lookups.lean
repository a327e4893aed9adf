import Mathlib.Data.List.Pairwise
import OutlineWiki.Proofs.Outline.Places

/-!
What the index of a prepared tree answers.

The number of a node leads to its place, which is the only one where the node stands. So
every question about the surroundings of a node is answered by the way down to it.
-/

namespace OutlineWiki

/-- The node gives the text of the footnote with the label. -/
def Node.Defines (label : String) (node : Node) : Prop :=
  node.kind = .footnoteDefinition label ∨
    node.kind = .footnoteReference (some label) ∧ node.children ≠ []

theorem Node.definesFootnote_iff {label : String} {node : Node} :
    node.definesFootnote label = true ↔ node.Defines label := by
  rw [definesFootnote, Defines]
  cases node.kind with
  | footnoteReference own => cases own <;> simp
  | _ => simp

namespace Place

variable {tree : Node} {place other : Place}

/-- The tree has different nodes in different places. -/
theorem Leads.eq_of_node_eq (hnodup : tree.walk.Nodup) (h : (ofRoot tree).Leads place)
    (ho : (ofRoot tree).Leads other) (heq : place.node = other.node) : place = other := by
  rw [← Node.map_placesAt tree [] 0 none] at hnodup
  exact List.inj_on_of_nodup_map hnodup (Node.mem_placesAt_iff.mpr h)
    (Node.mem_placesAt_iff.mpr ho) heq

/-- Whoever owns the node at a place is the first of the nodes above it. -/
theorem Leads.head?_above (hnodup : tree.walk.Nodup) (h : (ofRoot tree).Leads place)
    {owner : Node} (ho : owner ∈ tree.walk) (hm : place.node ∈ owner.members) :
    place.above.head? = some owner := by
  obtain ⟨upper, hupper, rfl⟩ := exists_of_mem_walk ho
  obtain ⟨list, hl, hin⟩ := Node.mem_members_iff.mp hm
  obtain ⟨before, after, rfl⟩ := List.append_of_mem hin
  rw [h.eq_of_node_eq hnodup (.step hupper hl) rfl]
  rfl

/-- The nodes above a place are all nodes of the tree that have the node there below them. -/
theorem Leads.mem_above_iff (hnodup : tree.walk.Nodup) (h : (ofRoot tree).Leads place)
    {upper : Node} :
    upper ∈ place.above ↔ upper ∈ tree.walk ∧ place.node ∈ upper.descendants := by
  refine ⟨h.mem_descendants, ?_⟩
  rintro ⟨hu, hbelow⟩
  induction h with
  | refl =>
      obtain ⟨owner, howner, hm⟩ := Node.mem_descendants_iff.mp hbelow
      have hhead := Leads.refl.head?_above hnodup (Node.mem_walk_trans howner hu) hm
      cases hhead
  | @step place before after node hplace mem ih =>
      obtain ⟨owner, howner, hm⟩ := Node.mem_descendants_iff.mp hbelow
      have hhead := (Leads.step hplace mem).head?_above hnodup (Node.mem_walk_trans howner hu) hm
      obtain rfl : place.node = owner := Option.some.inj hhead
      obtain rfl | hdesc := Node.mem_walk_iff.mp howner
      · exact List.mem_cons_self
      · exact List.mem_cons_of_mem _ (ih hdesc)

end Place

namespace Node

theorem walk_prepare_nodup (root : Node) : root.prepare.walk.Nodup :=
  List.Nodup.of_map (·.id) (by rw [ids_prepare]; exact List.nodup_range)

theorem walk_sublist_of_mem {inner node : Node} (h : inner ∈ node.walk) :
    inner.walk.Sublist node.walk := by
  induction node using member_induction with
  | step node ih =>
      obtain rfl | hbelow := mem_walk_iff.mp h
      · exact .refl _
      · obtain ⟨member, hm, hin⟩ := List.mem_flatMap.mp hbelow
        have hmember := walk_sublist (List.singleton_sublist.mpr hm)
        rw [List.flatMap_singleton] at hmember
        exact (ih member hm hin).trans hmember

theorem members_nodup {tree owner : Node} (h : tree.walk.Nodup) (ho : owner ∈ tree.walk) :
    owner.members.Nodup := by
  have hwalk : (owner.members.flatMap walk).Nodup :=
    h.sublist ((walk_sublist (.refl _)).trans (walk_sublist_of_mem ho))
  have hmembers : (owner.members.flatMap fun member => [member]).Sublist
      (owner.members.flatMap walk) :=
    flatMap_sublist fun member _ => List.singleton_sublist.mpr member.mem_walk_self
  rw [List.flatMap_singleton'] at hmembers
  exact hwalk.sublist hmembers

/-- A node stands in only one of the lists of its owner. -/
theorem list_eq_of_mem {owner node : Node} {list other : List Node} (h : owner.members.Nodup)
    (hl : list ∈ owner.lists) (ho : other ∈ owner.lists) (hn : node ∈ list)
    (hno : node ∈ other) : list = other := by
  by_contra hne
  have hsymm : Std.Symm fun first second : List Node => first.Disjoint second :=
    ⟨fun _ _ hd _ hs hf => hd hf hs⟩
  have hdisjoint : list.Disjoint other := (List.nodup_flatten.mp h).2.forall hl ho hne
  exact hdisjoint hn hno

theorem sizeOf_lt_of_mem_descendants {inner node : Node} (h : inner ∈ node.descendants) :
    sizeOf inner < sizeOf node := by
  induction node using member_induction with
  | step node ih =>
      obtain ⟨member, hm, hin⟩ := List.mem_flatMap.mp h
      have hmember := sizeOf_lt_of_mem_members hm
      obtain rfl | hbelow := mem_walk_iff.mp hin
      · exact hmember
      · have hinner := ih member hm hbelow
        omega

/-- What is found first in a list that is in strict order comes before all else of its kind. -/
theorem find?_eq_some_iff_of_pairwise {nodes : List Node} {R : Node → Node → Prop}
    (h : nodes.Pairwise R) (hasymm : ∀ first other, R first other → ¬ R other first)
    {p : Node → Bool} {node : Node} :
    nodes.find? p = some node ↔
      node ∈ nodes ∧ p node = true ∧
        ∀ other ∈ nodes, p other = true → other = node ∨ R node other := by
  have hfirst : ∀ {found : Node}, nodes.find? p = some found →
      ∀ other ∈ nodes, p other = true → other = found ∨ R found other := by
    intro found hfound other ho hp
    obtain ⟨_, before, after, rfl, hbefore⟩ := List.find?_eq_some_iff_append.mp hfound
    obtain hin | hin := List.mem_append.mp ho
    · have hnot := hbefore other hin
      simp [hp] at hnot
    · obtain rfl | hafter := List.mem_cons.mp hin
      · exact .inl rfl
      · exact .inr ((List.pairwise_cons.mp (List.pairwise_append.mp h).2.1).1 other hafter)
  constructor
  · intro hfound
    exact ⟨List.mem_of_find?_eq_some hfound, List.find?_some hfound, hfirst hfound⟩
  · rintro ⟨hmem, hp, hall⟩
    obtain ⟨found, hfound⟩ := Option.isSome_iff_exists.mp
      (List.find?_isSome.mpr ⟨node, hmem, hp⟩)
    obtain rfl | hbefore := hall found (List.mem_of_find?_eq_some hfound) (List.find?_some hfound)
    · exact hfound
    · obtain rfl | hafter := hfirst hfound node hmem hp
      · exact hfound
      · exact absurd hbefore (hasymm _ _ hafter)

end Node

namespace Index

variable {root : Node}

/-- The place of each node stands at the number of the node. -/
theorem place?_eq_some_iff {id : Nat} {place : Place} :
    (ofTree root.prepare).place? id = some place ↔
      (Place.ofRoot root.prepare).Leads place ∧ place.node.id = id := by
  let places := root.prepare.placesAt [] 0 none
  -- The places stand in the order of the walk, which is the order of the numbers.
  have hids : places.map (·.node.id) = List.range places.length := by
    have h := Node.ids_prepare root
    rw [← Node.map_placesAt root.prepare [] 0 none, List.map_map, List.length_map] at h
    exact h
  have hat : ∀ {number : Nat} {other : Place}, places[number]? = some other →
      other.node.id = number := by
    intro number other h
    have hid := congrArg (·[number]?) hids
    simp only [List.getElem?_map, h, Option.map_some] at hid
    obtain ⟨_, heq⟩ := List.getElem?_eq_some_iff.mp hid.symm
    rw [← heq, List.getElem_range]
  have hplace : (ofTree root.prepare).place? id = places[id]? := by
    simp [place?, ofTree, places]
  rw [hplace, ← Node.mem_placesAt_iff]
  constructor
  · intro h
    exact ⟨List.mem_of_getElem? h, hat h⟩
  · rintro ⟨hmem, rfl⟩
    obtain ⟨number, h⟩ := List.mem_iff_getElem?.mp hmem
    rw [hat h]
    exact h

/-- What the index of a tree answers about the nodes of the tree. -/
structure Answers (index : Index) (tree : Node) : Prop where
  /-- The nodes bear the numbers from zero on in the order of the walk. -/
  ids : tree.walk.map (·.id) = List.range index.size
  /-- A number leads to the very node that bears it. -/
  node : ∀ id node, index.node? id = some node ↔ node ∈ tree.walk ∧ node.id = id
  root : index.parent? tree = none ∧ index.position? tree = some 0 ∧ index.previous? tree = none
  /-- Any other node stands once in one list of one owner, and the index knows where. -/
  owned : ∀ node ∈ tree.walk, node ≠ tree → ∃ owner ∈ tree.walk, ∃ before after,
    before ++ node :: after ∈ owner.lists ∧ node ∉ before ∧ node ∉ after ∧
      (∀ other ∈ tree.walk, ∀ list ∈ other.lists, node ∈ list →
        other = owner ∧ list = before ++ node :: after) ∧
      index.parent? node = some owner ∧ index.position? node = some before.length ∧
      index.previous? node = before.getLast?
  first : ∀ node ∈ tree.walk, index.previous? node = none ↔ index.position? node = some 0
  /-- The block around a node is the lowest of the blocks that have the node below them. -/
  block : ∀ node ∈ tree.walk, ∀ block, index.parentBlock? node = some block ↔
    block ∈ tree.walk ∧ block.kind.isBlock = true ∧ node ∈ block.descendants ∧
      ∀ other ∈ tree.walk, other.kind.isBlock = true → node ∈ other.descendants →
        block ∈ other.walk
  noBlock : ∀ node ∈ tree.walk, index.parentBlock? node = none ↔
    ∀ other ∈ tree.walk, node ∈ other.descendants → other.kind.isBlock = false
  /-- The text of a footnote is given by the first node that defines the label. -/
  definition : ∀ label node, index.definition? label = some node ↔
    node ∈ tree.walk ∧ node.Defines label ∧
      ∀ other ∈ tree.walk, other.Defines label → node.id ≤ other.id
  noDefinition : ∀ label, index.definition? label = none ↔
    ∀ node ∈ tree.walk, ¬ node.Defines label

theorem node?_eq_some_iff {id : Nat} {node : Node} :
    (ofTree root.prepare).node? id = some node ↔ node ∈ root.prepare.walk ∧ node.id = id := by
  rw [node?, Option.map_eq_some_iff]
  constructor
  · rintro ⟨place, hplace, rfl⟩
    obtain ⟨hleads, hid⟩ := place?_eq_some_iff.mp hplace
    exact ⟨hleads.node_mem, hid⟩
  · rintro ⟨hmem, hid⟩
    obtain ⟨place, hleads, rfl⟩ := Place.exists_of_mem_walk hmem
    exact ⟨place, place?_eq_some_iff.mpr ⟨hleads, hid⟩, rfl⟩

/-- All lookups of a node go through its place. -/
theorem lookups_of_leads {place : Place} (h : (Place.ofRoot root.prepare).Leads place) :
    let index := ofTree root.prepare
    index.parent? place.node = place.above.head? ∧
      index.position? place.node = some place.position ∧
      index.previous? place.node = place.previous ∧
      index.parentBlock? place.node = place.above.find? (·.kind.isBlock) := by
  have hplace := place?_eq_some_iff.mpr ⟨h, rfl⟩
  simp only [parent?, position?, previous?, parentBlock?, hplace, Option.bind_some,
    Option.map_some, and_self]

/-- The place of a node in a list of its owner tells all lookups of the node. -/
theorem lookups_of_mem_lists {owner node : Node} {before after : List Node}
    (ho : owner ∈ root.prepare.walk) (h : before ++ node :: after ∈ owner.lists) :
    let index := ofTree root.prepare
    index.parent? node = some owner ∧
      index.position? node = some before.length ∧
      index.previous? node = before.getLast? ∧
      index.parentBlock? node =
        if owner.kind.isBlock then some owner else index.parentBlock? owner := by
  obtain ⟨place, hplace, rfl⟩ := Place.exists_of_mem_walk ho
  obtain ⟨hparent, hposition, hprevious, hblock⟩ := lookups_of_leads (.step hplace h)
  refine ⟨hparent, hposition, hprevious, hblock.trans ?_⟩
  rw [(lookups_of_leads hplace).2.2.2, Place.inside, List.find?_cons]
  cases place.node.kind.isBlock <;> rfl

theorem previous?_eq_none_iff {node : Node} (h : node ∈ root.prepare.walk) :
    (ofTree root.prepare).previous? node = none ↔
      (ofTree root.prepare).position? node = some 0 := by
  obtain ⟨place, hleads, rfl⟩ := Place.exists_of_mem_walk h
  obtain ⟨_, hposition, hprevious, _⟩ := lookups_of_leads hleads
  rw [hposition, hprevious]
  cases hleads with
  | refl => exact iff_of_true rfl rfl
  | step _ _ => simp [Place.inside]

theorem exists_owner {node : Node} (h : node ∈ root.prepare.walk) (hne : node ≠ root.prepare) :
    ∃ owner ∈ root.prepare.walk, ∃ before after, before ++ node :: after ∈ owner.lists ∧
      (ofTree root.prepare).parent? node = some owner ∧
      (ofTree root.prepare).position? node = some before.length ∧
      (ofTree root.prepare).previous? node = before.getLast? := by
  obtain ⟨place, hleads, rfl⟩ := Place.exists_of_mem_walk h
  obtain ⟨hparent, hposition, hprevious, _⟩ := lookups_of_leads hleads
  cases hleads with
  | refl => exact absurd rfl hne
  | @step upper before after node hupper mem =>
      exact ⟨upper.node, hupper.node_mem, before, after, mem, hparent, hposition, hprevious⟩

/-- Whoever owns a node is the one that the index knows. -/
theorem parent?_of_mem_members {owner node : Node} (ho : owner ∈ root.prepare.walk)
    (h : node ∈ owner.members) : (ofTree root.prepare).parent? node = some owner := by
  obtain ⟨place, hleads, rfl⟩ := Place.exists_of_mem_walk
    (Node.mem_walk_trans (Node.mem_walk_of_mem_members h) ho)
  rw [(lookups_of_leads hleads).1]
  exact hleads.head?_above root.walk_prepare_nodup ho h

theorem mem_members_of_parent? {owner node : Node} (h : node ∈ root.prepare.walk)
    (hparent : (ofTree root.prepare).parent? node = some owner) : node ∈ owner.members := by
  obtain ⟨place, hleads, rfl⟩ := Place.exists_of_mem_walk h
  rw [(lookups_of_leads hleads).1] at hparent
  cases hleads with
  | refl => cases hparent
  | @step upper before after node hupper mem =>
      cases hparent
      exact Node.mem_members_iff.mpr ⟨_, mem, List.mem_append_right _ List.mem_cons_self⟩

theorem parentBlock?_eq_some_iff {node block : Node} (h : node ∈ root.prepare.walk) :
    (ofTree root.prepare).parentBlock? node = some block ↔
      block ∈ root.prepare.walk ∧ block.kind.isBlock = true ∧ node ∈ block.descendants ∧
        ∀ other ∈ root.prepare.walk, other.kind.isBlock = true → node ∈ other.descendants →
          block ∈ other.walk := by
  obtain ⟨place, hleads, rfl⟩ := Place.exists_of_mem_walk h
  obtain ⟨_, _, _, hblock⟩ := lookups_of_leads hleads
  have hasymm : ∀ first other : Node, first ∈ other.descendants → ¬ other ∈ first.descendants := by
    intro first other hfirst hother
    have hlt := Node.sizeOf_lt_of_mem_descendants hfirst
    have hgt := Node.sizeOf_lt_of_mem_descendants hother
    omega
  rw [hblock, Node.find?_eq_some_iff_of_pairwise hleads.above_pairwise hasymm]
  simp only [hleads.mem_above_iff root.walk_prepare_nodup, Node.mem_walk_iff]
  constructor
  · rintro ⟨⟨hmem, hbelow⟩, hkind, hall⟩
    exact ⟨hmem, hkind, hbelow, fun other ho hk hb => (hall other ⟨ho, hb⟩ hk).imp_left Eq.symm⟩
  · rintro ⟨hmem, hkind, hbelow, hall⟩
    exact ⟨⟨hmem, hbelow⟩, hkind, fun other ho hk => (hall other ho.1 hk ho.2).imp_left Eq.symm⟩

theorem parentBlock?_eq_none_iff {node : Node} (h : node ∈ root.prepare.walk) :
    (ofTree root.prepare).parentBlock? node = none ↔
      ∀ other ∈ root.prepare.walk, node ∈ other.descendants → other.kind.isBlock = false := by
  obtain ⟨place, hleads, rfl⟩ := Place.exists_of_mem_walk h
  obtain ⟨_, _, _, hblock⟩ := lookups_of_leads hleads
  rw [hblock, List.find?_eq_none]
  simp only [hleads.mem_above_iff root.walk_prepare_nodup, Bool.not_eq_true, and_imp]

theorem definition?_eq_find? (tree : Node) (label : String) :
    (ofTree tree).definition? label = tree.walk.find? (·.definesFootnote label) := by
  rw [definition?, ← Node.map_placesAt tree [] 0 none, List.find?_map]
  rfl

theorem definition?_eq_some_iff {label : String} {node : Node} :
    (ofTree root.prepare).definition? label = some node ↔
      node ∈ root.prepare.walk ∧ node.Defines label ∧
        ∀ other ∈ root.prepare.walk, other.Defines label → node.id ≤ other.id := by
  rw [definition?_eq_find?, Node.find?_eq_some_iff_of_pairwise (Node.ids_increase root)
    fun first other hlt => by omega]
  simp only [Node.definesFootnote_iff]
  refine and_congr_right fun hmem => and_congr_right fun _ =>
    forall₃_congr fun other ho _ => ⟨?_, fun hle => ?_⟩
  · rintro (rfl | hlt)
    · exact Nat.le_refl _
    · exact Nat.le_of_lt hlt
  · obtain hlt | heq := Nat.lt_or_eq_of_le hle
    · exact .inr hlt
    · exact .inl (Node.eq_of_id_eq hmem ho heq).symm

/-- In a prepared tree the index answers every question about a node of the tree, and the
answers are those that the lists of the tree give. -/
theorem ofTree_answers (root : Node) : (ofTree root.prepare).Answers root.prepare where
  ids := by rw [size_ofTree, Node.ids_prepare]
  node id node := node?_eq_some_iff
  root := by
    have hroot : (Place.ofRoot root.prepare).Leads (Place.ofRoot root.prepare) := .refl
    obtain ⟨hparent, hposition, hprevious, _⟩ := lookups_of_leads hroot
    exact ⟨hparent, hposition, hprevious⟩
  owned node hmem hne := by
    obtain ⟨owner, howner, before, after, hlist, hlookups⟩ := exists_owner hmem hne
    have hmembers := Node.members_nodup root.walk_prepare_nodup howner
    have hnodup := (List.nodup_flatten.mp hmembers).1 _ hlist
    have hsplit := List.nodup_middle.mp hnodup
    obtain ⟨hnot, _⟩ := List.nodup_cons.mp hsplit
    rw [List.mem_append, not_or] at hnot
    refine ⟨owner, howner, before, after, hlist, hnot.1, hnot.2, ?_, hlookups⟩
    intro other ho list hl hin
    have hparent := parent?_of_mem_members ho (Node.mem_members_iff.mpr ⟨list, hl, hin⟩)
    obtain rfl : owner = other := Option.some.inj (hlookups.1.symm.trans hparent)
    exact ⟨rfl, Node.list_eq_of_mem hmembers hl hlist hin (by simp)⟩
  first node hmem := previous?_eq_none_iff hmem
  block node hmem block := parentBlock?_eq_some_iff hmem
  noBlock node hmem := parentBlock?_eq_none_iff hmem
  definition label node := definition?_eq_some_iff
  noDefinition label := by
    rw [definition?_eq_find?, List.find?_eq_none]
    simp only [Node.definesFootnote_iff]

end Index
end OutlineWiki
