import OutlineWiki.Proofs.Outline.Walk

/-!
The footnote references that a node shows.

A node without detours shows the references among its tag, its children and what stands
at its head: the title of a headline or the caption of a table. They are listed in two
orders. In document order the head comes before the contents, as in the walk. The other
order puts the contents first, and parts from document order at heads only.
-/

namespace OutlineWiki
namespace Node

/-- Puts what stands at the head of a node after its contents or before them. -/
def arrange {α : Type} (contentsFirst : Bool) (head contents : List α) : List α :=
  if contentsFirst then contents ++ head else head ++ contents

/-- The nodes at the head of a node: the title of a headline or the caption of a table. -/
def head (node : Node) : List Node :=
  match node.kind with
  | .headline _ title => title
  | .table .rows _ => node.caption.getD []
  | _ => []

/-- The references that a node shows, contents first or in document order. -/
def shownReferences (contentsFirst : Bool) : Node → List Node :=
  fold fun node parts =>
    match parts.kind with
    | .footnoteReference _ => [node]
    | .footnoteDefinition _ | .comment | .unknown => []
    | .headline info title =>
      if info.footnoteSection then []
      else arrange contentsFirst title.flatten parts.children.flatten
    | .listItem _ tag => (tag.getD []).flatten ++ parts.children.flatten
    | .table .rows _ =>
      arrange contentsFirst (parts.caption.getD []).flatten parts.children.flatten
    | _ => parts.children.flatten

theorem mem_arrange {α : Type} {contentsFirst : Bool} {head contents : List α} {a : α} :
    a ∈ arrange contentsFirst head contents ↔ a ∈ head ∨ a ∈ contents := by
  rw [arrange]
  split <;> simp [or_comm]

theorem shownReferences_eq (contentsFirst : Bool) (node : Node) :
    node.shownReferences contentsFirst =
      match node.kind with
      | .footnoteReference _ => [node]
      | .footnoteDefinition _ | .comment | .unknown => []
      | .headline info title =>
        if info.footnoteSection then []
        else arrange contentsFirst (title.flatMap (shownReferences contentsFirst))
          (node.children.flatMap (shownReferences contentsFirst))
      | .listItem _ tag =>
        (tag.getD []).flatMap (shownReferences contentsFirst) ++
          node.children.flatMap (shownReferences contentsFirst)
      | .table .rows _ =>
        arrange contentsFirst ((node.caption.getD []).flatMap (shownReferences contentsFirst))
          (node.children.flatMap (shownReferences contentsFirst))
      | _ => node.children.flatMap (shownReferences contentsFirst) := by
  rw [shownReferences, fold_eq]
  obtain ⟨kind, children, postBlank, name, caption, id⟩ := node
  cases kind with
  | listItem checkbox tag => cases tag <;> rfl
  | table type value => cases type <;> cases caption <;> rfl
  | _ => rfl

theorem members_eq (node : Node) :
    node.members = node.caption.getD [] ++ node.kind.lists.flatten ++ node.children := by
  obtain ⟨kind, children, postBlank, name, caption, id⟩ := node
  cases caption <;> simp [members, Parts.members, Parts.lists, parts]

theorem children_sublist_members (node : Node) : node.children.Sublist node.members := by
  rw [members_eq]
  exact List.sublist_append_right _ _

theorem kind_children_sublist_members (node : Node) :
    (node.kind.lists.flatten ++ node.children).Sublist node.members := by
  rw [members_eq, List.append_assoc]
  exact List.sublist_append_right _ _

theorem caption_children_sublist_members (node : Node) :
    (node.caption.getD [] ++ node.children).Sublist node.members := by
  rw [members_eq]
  exact (List.sublist_append_left _ _).append_right _

theorem flatMap_sublist {α β : Type} {f g : α → List β} {list : List α}
    (h : ∀ a ∈ list, (f a).Sublist (g a)) : (list.flatMap f).Sublist (list.flatMap g) := by
  induction list with
  | nil => exact .refl _
  | cons a list ih =>
      rw [List.flatMap_cons, List.flatMap_cons]
      exact (h a List.mem_cons_self).append (ih fun b hb => h b (List.mem_cons_of_mem _ hb))

theorem flatMap_sublist_left {α β : Type} (f : α → List β) {list more : List α}
    (h : list.Sublist more) : (list.flatMap f).Sublist (more.flatMap f) := by
  induction h with
  | slnil => exact .refl _
  | cons a _ ih => rw [List.flatMap_cons]; exact ih.trans (List.sublist_append_right _ _)
  | cons_cons a _ ih =>
      rw [List.flatMap_cons, List.flatMap_cons]
      exact (List.Sublist.refl _).append ih

theorem walk_sublist {node : Node} {list : List Node} (h : list.Sublist node.members) :
    (list.flatMap walk).Sublist node.walk := by
  rw [walk_eq]
  exact (flatMap_sublist_left walk h).cons node

/-- In document order the references stand as in the walk. -/
theorem shownReferences_sublist_walk (node : Node) :
    (node.shownReferences false).Sublist node.walk := by
  induction node using member_induction with
  | step node ih =>
      have hlist : ∀ list : List Node, list.Sublist node.members →
          (list.flatMap (shownReferences false)).Sublist node.walk := fun list hl =>
        (flatMap_sublist fun member hm => ih member (hl.subset hm)).trans (walk_sublist hl)
      have hchildren := hlist _ (children_sublist_members node)
      rw [shownReferences_eq]
      cases kind : node.kind with
      | footnoteReference label =>
          exact List.singleton_sublist.mpr (mem_walk_self node)
      | footnoteDefinition label | comment | unknown => exact List.nil_sublist _
      | headline info title =>
          dsimp only
          split
          · exact List.nil_sublist _
          · have h := hlist _ (kind_children_sublist_members node)
            rw [kind] at h
            simpa [arrange, Kind.lists] using h
      | listItem checkbox tag =>
          have h := hlist _ (kind_children_sublist_members node)
          rw [kind] at h
          cases tag <;> simpa [Kind.lists] using h
      | table type value =>
          cases type with
          | drawing => exact hchildren
          | rows =>
              have h := hlist _ (caption_children_sublist_members node)
              simpa [arrange] using h
      | _ => exact hchildren

theorem mem_shownReferences_iff {reference node : Node} :
    reference ∈ node.shownReferences true ↔ reference ∈ node.shownReferences false := by
  induction node using member_induction with
  | step node ih =>
      have hlist : ∀ list : List Node, list.Sublist node.members →
          (reference ∈ list.flatMap (shownReferences true) ↔
            reference ∈ list.flatMap (shownReferences false)) := by
        intro list hl
        simp only [List.mem_flatMap]
        exact exists_congr fun member => and_congr_right fun hm => ih member (hl.subset hm)
      have hchildren := hlist _ (children_sublist_members node)
      rw [shownReferences_eq, shownReferences_eq]
      cases kind : node.kind with
      | footnoteReference _ | footnoteDefinition _ | comment | unknown => rfl
      | headline info title =>
          dsimp only
          have h := hlist title ((List.sublist_append_left _ node.children).trans
            (by simpa [kind, Kind.lists] using kind_children_sublist_members node))
          split
          · rfl
          · rw [mem_arrange, mem_arrange, h, hchildren]
      | listItem checkbox tag =>
          dsimp only
          have h := hlist (tag.getD []) ((List.sublist_append_left _ node.children).trans (by
            have hs := kind_children_sublist_members node
            rw [kind] at hs
            cases tag <;> simpa [Kind.lists] using hs))
          rw [List.mem_append, List.mem_append, h, hchildren]
      | table type value =>
          cases type with
          | drawing => exact hchildren
          | rows =>
              have h := hlist (node.caption.getD [])
                ((List.sublist_append_left _ node.children).trans
                  (caption_children_sublist_members node))
              dsimp only
              rw [mem_arrange, mem_arrange, h, hchildren]
      | _ => exact hchildren

theorem mem_walk_of_shownReferences {reference node : Node}
    (h : reference ∈ node.shownReferences true) : reference ∈ node.walk :=
  (shownReferences_sublist_walk node).subset (mem_shownReferences_iff.mp h)

/-- The first of two references comes before the other in document order, or the other
stands at the head of a node of the tree and the first in the contents of this node. -/
def Precedes (root first other : Node) : Prop :=
  first.id < other.id ∨ ∃ owner ∈ root.walk,
    first ∈ owner.children.flatMap (shownReferences true) ∧
      other ∈ owner.head.flatMap (shownReferences true)

theorem flatMap_shownReferences_pairwise {root node : Node} {list : List Node}
    (hl : list.Sublist node.members)
    (hids : node.walk.Pairwise fun first other => first.id < other.id)
    (h : ∀ member ∈ node.members, (member.shownReferences true).Pairwise (Precedes root)) :
    (list.flatMap (shownReferences true)).Pairwise (Precedes root) := by
  rw [walk_eq, List.pairwise_cons] at hids
  obtain ⟨_, hmembers⟩ := List.pairwise_flatMap.mp hids.2
  refine List.pairwise_flatMap.mpr ⟨fun member hm => h member (hl.subset hm), ?_⟩
  refine (hmembers.sublist hl).imp fun hless first hf other ho => ?_
  exact .inl (hless first (mem_walk_of_shownReferences hf) other (mem_walk_of_shownReferences ho))

theorem arrange_shownReferences_pairwise {root owner : Node} {head : List Node}
    (howner : owner ∈ root.walk) (hhead : owner.head = head)
    (hh : (head.flatMap (shownReferences true)).Pairwise (Precedes root))
    (hc : (owner.children.flatMap (shownReferences true)).Pairwise (Precedes root)) :
    (arrange true (head.flatMap (shownReferences true))
      (owner.children.flatMap (shownReferences true))).Pairwise (Precedes root) :=
  List.pairwise_append.mpr ⟨hc, hh, fun _ hf _ ho => .inr ⟨owner, howner, hf, hhead ▸ ho⟩⟩

/-- With contents first, references only leave document order at the head of a node. -/
theorem shownReferences_pairwise {root node : Node} (hn : ∀ inner ∈ node.walk, inner ∈ root.walk)
    (hids : node.walk.Pairwise fun first other => first.id < other.id) :
    (node.shownReferences true).Pairwise (Precedes root) := by
  induction node using member_induction with
  | step node ih =>
      have hmember : ∀ member ∈ node.members,
          (member.shownReferences true).Pairwise (Precedes root) := fun member hm =>
        ih member hm (fun inner hi => hn inner (mem_walk_of_mem_member hi hm))
          (hids.sublist (((List.flatMap_def ▸
            List.sublist_flatten_of_mem (List.mem_map_of_mem hm)).cons node).trans
              (walk_eq node ▸ .refl _)))
      have hlist : ∀ {list : List Node}, list.Sublist node.members →
          (list.flatMap (shownReferences true)).Pairwise (Precedes root) :=
        fun hl => flatMap_shownReferences_pairwise hl hids hmember
      have hroot := hn node node.mem_walk_self
      have hchildren := hlist (children_sublist_members node)
      rw [shownReferences_eq]
      cases kind : node.kind with
      | footnoteReference label => exact List.pairwise_singleton _ _
      | footnoteDefinition label | comment | unknown => exact .nil
      | headline info title =>
          dsimp only
          split
          · exact .nil
          · have htitle := (List.sublist_append_left _ node.children).trans
              (kind_children_sublist_members node)
            rw [kind] at htitle
            refine arrange_shownReferences_pairwise hroot (by rw [head, kind]) (hlist ?_) hchildren
            simpa [Kind.lists] using htitle
      | listItem checkbox tag =>
          have htag := kind_children_sublist_members node
          rw [kind] at htag
          dsimp only
          rw [← List.flatMap_append]
          apply hlist
          cases tag <;> simpa [Kind.lists] using htag
      | table type value =>
          cases type with
          | drawing => exact hchildren
          | rows =>
              have hcaption := (List.sublist_append_left _ node.children).trans
                (caption_children_sublist_members node)
              exact arrange_shownReferences_pairwise hroot (by rw [head, kind]) (hlist hcaption)
                hchildren
      | _ => exact hchildren

end Node
end OutlineWiki
