import OutlineWiki.Proofs.Outline.Lookups
import OutlineWiki.Proofs.Outline.Preparation

/-!
Other attributes for the headlines of a tree.

What a headline says beside its title can be changed before or after preparation, as neither
the blank lines nor the numbers of nodes depend on it. The nodes of the tree stay in their
places and keep their texts.
-/

namespace OutlineWiki

namespace Kind

variable {α β : Type}

/-- The kind with other attributes beside the title, if it is that of a headline. -/
def redress (change : HeadlineInfo → HeadlineInfo) : Kind α → Kind α
  | headline info title => headline (change info) title
  | kind => kind

variable (change : HeadlineInfo → HeadlineInfo)

theorem redress_map (f : α → β) (kind : Kind α) :
    (kind.map f).redress change = (kind.redress change).map f := by
  cases kind <;> rfl

theorem lists_redress (kind : Kind α) : (kind.redress change).lists = kind.lists := by
  cases kind <;> rfl

theorem isBlock_redress (kind : Kind α) : (kind.redress change).isBlock = kind.isBlock := by
  cases kind <;> rfl

theorem isLine_redress (kind : Kind α) : (kind.redress change).isLine = kind.isLine := by
  cases kind <;> rfl

theorem title_redress (kind : Kind α) : (kind.redress change).title = kind.title := by
  cases kind <;> rfl

theorem ownText_redress (kind : Kind α) : (kind.redress change).ownText = kind.ownText := by
  cases kind <;> rfl

theorem ownText_map (f : α → β) (kind : Kind α) : (kind.map f).ownText = kind.ownText := by
  cases kind <;> rfl

theorem title_subset_lists (kind : Kind α) : kind.title ⊆ kind.lists.flatten := by
  cases kind with
  | headline info title => exact fun a ha => List.mem_flatten.mpr ⟨title, List.mem_cons_self, ha⟩
  | _ => exact List.nil_subset _

/-- Numbering followed by a change of what is numbered. -/
def numberThen (f : α → β) (number : Nat → α × Nat) (next : Nat) : β × Nat :=
  (f (number next).1, (number next).2)

theorem numberAll_then (f : α → β) (nodes : List (Nat → α × Nat)) (next : Nat) :
    numberAll (nodes.map (numberThen f)) next = numberThen (List.map f) (numberAll nodes) next := by
  induction nodes generalizing next with
  | nil => rfl
  | cons node nodes ih =>
      rw [List.map_cons, numberAll, ih]
      rfl

theorem numberHeld_then (f : α → β) (kind : Kind (Nat → α × Nat)) (next : Nat) :
    (kind.map (numberThen f)).numberHeld next = numberThen (map f) kind.numberHeld next := by
  cases kind with
  | headline info title =>
      rw [map, numberHeld, numberAll_then]
      rfl
  | listItem checkbox tag =>
      cases tag with
      | none => rfl
      | some tag =>
          rw [map, Option.map_some, numberHeld, numberAll_then]
          rfl
  | _ => rfl

theorem numberHeld_redress (kind : Kind (Nat → α × Nat)) (next : Nat) :
    (kind.redress change).numberHeld next =
      numberThen (redress change) kind.numberHeld next := by
  cases kind with
  | listItem checkbox tag => cases tag <;> rfl
  | _ => rfl

end Kind

namespace Parts

variable {α β : Type} (change : HeadlineInfo → HeadlineInfo)

def redress (parts : Parts α) : Parts α :=
  { parts with kind := parts.kind.redress change }

theorem redress_map (f : α → β) (parts : Parts α) :
    (parts.map f).redress change = (parts.redress change).map f := by
  rw [redress, redress, map, map, Kind.redress_map]

theorem lists_redress (parts : Parts α) : (parts.redress change).lists = parts.lists := by
  rw [lists, lists, redress, Kind.lists_redress]

theorem number_then (f : α → β) (parts : Parts (Nat → α × Nat)) (next : Nat) :
    (parts.map (Kind.numberThen f)).number next =
      Kind.numberThen (map f) parts.number next := by
  obtain ⟨kind, children, caption⟩ := parts
  cases caption <;>
    simp only [number, map, Option.map_some, Option.map_none, Kind.numberAll_then,
      Kind.numberHeld_then, Kind.numberThen]

theorem number_redress (parts : Parts (Nat → α × Nat)) (next : Nat) :
    (parts.redress change).number next =
      Kind.numberThen (redress change) parts.number next := by
  obtain ⟨kind, children, caption⟩ := parts
  simp only [number, redress, Kind.numberHeld_redress, Kind.numberThen]

end Parts

namespace Node

/-- The tree with other attributes beside the titles of its headlines. -/
def redress (change : HeadlineInfo → HeadlineInfo) : Node → Node :=
  transform fun node => { node with kind := node.kind.redress change }

section Fields

variable (change : HeadlineInfo → HeadlineInfo) (node : Node)

theorem redress_eq :
    node.redress change = node.withParts ((node.parts.map (redress change)).redress change) :=
  transform_eq _ node

theorem kind_redress :
    (node.redress change).kind = (node.kind.map (redress change)).redress change := by
  rw [redress_eq]
  rfl

theorem children_redress :
    (node.redress change).children = node.children.map (redress change) := by
  rw [redress_eq]
  rfl

theorem caption_redress :
    (node.redress change).caption = node.caption.map (·.map (redress change)) := by
  rw [redress_eq]
  rfl

theorem postBlank_redress : (node.redress change).postBlank = node.postBlank := by
  rw [redress_eq]
  rfl

theorem name_redress : (node.redress change).name = node.name := by
  rw [redress_eq]
  rfl

theorem id_redress : (node.redress change).id = node.id := by
  rw [redress_eq]
  rfl

theorem isBlock_redress : (node.redress change).kind.isBlock = node.kind.isBlock := by
  rw [kind_redress, Kind.isBlock_redress, Kind.isBlock_map]

theorem lists_redress :
    (node.redress change).lists = node.lists.map (·.map (redress change)) := by
  rw [redress_eq]
  change ((node.parts.map (redress change)).redress change).lists = _
  rw [Parts.lists_redress, Parts.lists_map]
  rfl

end Fields

section Walk

variable (change : HeadlineInfo → HeadlineInfo)

theorem uniform_redress : Uniform fun node => { node with kind := node.kind.redress change } where
  members node := by
    change (node.parts.redress change).lists.flatten = node.parts.lists.flatten
    rw [Parts.lists_redress]
  withParts f node := by
    change { node.withParts (node.parts.map f) with kind := (node.kind.map f).redress change } = _
    rw [Kind.redress_map]
    rfl

theorem walk_redress (node : Node) :
    (node.redress change).walk = node.walk.map (redress change) :=
  (uniform_redress change).walk_transform node

/-- What is found in the changed tree is what is found in the tree, with the change. -/
theorem find?_walk_redress {p : Node → Bool} (h : ∀ node, p (redress change node) = p node)
    (node : Node) :
    (node.redress change).walk.find? p = (node.walk.find? p).map (redress change) := by
  rw [walk_redress, List.find?_map, show p ∘ redress change = p from funext h]

theorem plainText_redress (node : Node) : (node.redress change).plainText = node.plainText := by
  induction node using member_induction with
  | step node ih =>
      have htexts : ∀ {nodes : List Node}, nodes ⊆ node.members →
          plainTexts (nodes.map (redress change)) = plainTexts nodes := by
        intro nodes hsub
        rw [plainTexts, plainTexts, List.flatMap_map]
        exact List.flatMap_congr fun member hm => ih member (hsub hm)
      have htitle : node.kind.title ⊆ node.members := fun member hm => by
        obtain ⟨list, hl, hin⟩ := List.mem_flatten.mp (node.kind.title_subset_lists hm)
        exact mem_members_of_kind hl hin
      have hspaces : (node.redress change).trailingSpaces = node.trailingSpaces := by
        rw [trailingSpaces, trailingSpaces, isBlock_redress, postBlank_redress]
      rw [plainText_eq, plainText_eq, children_redress, kind_redress, Kind.ownText_redress,
        Kind.ownText_map, Kind.title_redress, Kind.title_map, hspaces, htexts htitle,
        htexts fun member hm => mem_members_of_children hm]

theorem plainTexts_redress (nodes : List Node) :
    plainTexts (nodes.map (redress change)) = plainTexts nodes := by
  rw [plainTexts, plainTexts, List.flatMap_map]
  exact List.flatMap_congr fun node _ => plainText_redress change node

end Walk

section Preparation

variable (change : HeadlineInfo → HeadlineInfo)

theorem transform_spaced_redress (node : Node) :
    (node.redress change).transform spaced = (node.transform spaced).redress change := by
  rw [redress, (uniform_redress change).transform_transform,
    leavesParts_spaced.uniform.transform_transform]
  refine congrArg (transform · node) (funext fun node => ?_)
  rw [Function.comp_apply, Function.comp_apply, spaced, spaced]
  have hspaced : ({ node with kind := node.kind.redress change } : Node).isSpaced =
      node.isSpaced :=
    isSpaced_of_kind (Kind.isBlock_redress change node.kind) (Kind.isLine_redress change node.kind)
  rw [hspaced]
  split <;> rfl

theorem separateBlocks_redress (root : Node) :
    (root.redress change).separateBlocks = root.separateBlocks.redress change := by
  rw [separateBlocks, redress_eq, separateBlocks, redress_eq]
  change root.withParts (((root.parts.map (redress change)).redress change).map
    (transform spaced)) = root.withParts (((root.parts.map (transform spaced)).map
      (redress change)).redress change)
  rw [← Parts.redress_map, Parts.map_map, Parts.map_map]
  exact congrArg (fun parts : Parts Node => root.withParts (parts.redress change))
    (Parts.map_congr fun member _ => transform_spaced_redress change member)

theorem numberFrom_redress (node : Node) :
    (node.redress change).numberFrom = Kind.numberThen (redress change) node.numberFrom := by
  induction node using member_induction with
  | step node ih =>
      funext next
      have hparts : (node.redress change).parts.map numberFrom =
          ((node.parts.map numberFrom).map (Kind.numberThen (redress change))).redress change := by
        rw [redress_eq]
        change ((node.parts.map (redress change)).redress change).map numberFrom = _
        rw [← Parts.redress_map, Parts.map_map, Parts.map_map]
        exact congrArg (Parts.redress change) (Parts.map_congr ih)
      rw [numberFrom_eq, hparts, Parts.number_redress, Kind.numberThen, Parts.number_then,
        Kind.numberThen, Kind.numberThen, numberFrom_eq, redress_eq, redress_eq]
      rfl

/-- The attributes of headlines may be changed before preparation or after it. -/
theorem prepare_redress (root : Node) :
    (root.redress change).prepare = root.prepare.redress change := by
  rw [prepare, prepare, separateBlocks_redress, numberFrom_redress]
  rfl

end Preparation

end Node

/-- The place with other nodes in it and around it. -/
def Place.map (f : Node → Node) (place : Place) : Place :=
  ⟨f place.node, place.above.map f, place.position, place.previous.map f⟩

namespace Node

theorem placesIn_map {f : Node → Node} {nodes : List Node}
    (h : ∀ node ∈ nodes, ∀ above position previous,
      (f node).placesAt (above.map f) position (previous.map f) =
        (node.placesAt above position previous).map (Place.map f))
    (above : List Node) (position : Nat) (previous : Option Node) :
    placesIn (above.map f) position (previous.map f) (nodes.map f) =
      (placesIn above position previous nodes).map (Place.map f) := by
  induction nodes generalizing position previous with
  | nil => rfl
  | cons node nodes ih =>
      obtain ⟨hnode, hnodes⟩ := List.forall_mem_cons.mp h
      have hrest := ih hnodes (position + 1) (some node)
      rw [Option.map_some] at hrest
      rw [List.map_cons, placesIn, placesIn, hnode, hrest, List.map_append]

variable (change : HeadlineInfo → HeadlineInfo)

theorem placesAt_redress (node : Node) (above : List Node) (position : Nat)
    (previous : Option Node) :
    (node.redress change).placesAt (above.map (redress change)) position
        (previous.map (redress change)) =
      (node.placesAt above position previous).map (Place.map (redress change)) := by
  induction node using member_induction generalizing above position previous with
  | step node ih =>
      rw [placesAt_eq, placesAt_eq, lists_redress, List.map_cons, List.flatMap_map,
        List.map_flatMap]
      refine congrArg₂ List.cons rfl (List.flatMap_congr fun list hl => ?_)
      exact placesIn_map (fun member hm => ih member (mem_members_iff.mpr ⟨list, hl, hm⟩))
        (node :: above) 0 none

theorem definesFootnote_redress (label : String) (node : Node) :
    (node.redress change).definesFootnote label = node.definesFootnote label := by
  rw [definesFootnote, definesFootnote, kind_redress, children_redress]
  cases node.kind with
  | footnoteReference own => cases own <;> simp [Kind.map, Kind.bare, Kind.redress]
  | _ => rfl

theorem footnote?_redress (node : Node) : (node.redress change).footnote? = node.footnote? := by
  rw [footnote?, footnote?, kind_redress, id_redress]
  cases node.kind with
  | footnoteReference label => cases label <;> rfl
  | _ => rfl

end Node

namespace Index

variable (change : HeadlineInfo → HeadlineInfo) (tree node : Node)

theorem place?_redress :
    (ofTree (tree.redress change)).place? (node.redress change).id =
      ((ofTree tree).place? node.id).map (Place.map (Node.redress change)) := by
  have hplaces := Node.placesAt_redress change tree [] 0 none
  rw [List.map_nil, Option.map_none] at hplaces
  simp only [place?, ofTree, hplaces, Node.id_redress, List.getElem?_toArray, List.getElem?_map]

theorem parent?_redress :
    (ofTree (tree.redress change)).parent? (node.redress change) =
      ((ofTree tree).parent? node).map (Node.redress change) := by
  rw [parent?, parent?, place?_redress]
  cases (ofTree tree).place? node.id with
  | none => rfl
  | some place => exact List.head?_map

theorem position?_redress :
    (ofTree (tree.redress change)).position? (node.redress change) =
      (ofTree tree).position? node := by
  rw [position?, position?, place?_redress, Option.map_map]
  rfl

theorem previous?_redress :
    (ofTree (tree.redress change)).previous? (node.redress change) =
      ((ofTree tree).previous? node).map (Node.redress change) := by
  rw [previous?, previous?, place?_redress]
  cases (ofTree tree).place? node.id <;> rfl

theorem parentBlock?_redress :
    (ofTree (tree.redress change)).parentBlock? (node.redress change) =
      ((ofTree tree).parentBlock? node).map (Node.redress change) := by
  rw [parentBlock?, parentBlock?, place?_redress]
  cases (ofTree tree).place? node.id with
  | none => rfl
  | some place =>
      have hblock : (fun upper : Node => upper.kind.isBlock) ∘ Node.redress change =
          fun upper => upper.kind.isBlock := funext (Node.isBlock_redress change)
      rw [Option.map_some, Option.bind_some, Option.bind_some, Place.map, List.find?_map, hblock]

theorem definition?_redress (label : String) :
    (ofTree (tree.redress change)).definition? label =
      ((ofTree tree).definition? label).map (Node.redress change) := by
  rw [definition?_eq_find?, definition?_eq_find?]
  exact Node.find?_walk_redress change (Node.definesFootnote_redress change label) tree

theorem footnoteText?_redress :
    (ofTree (tree.redress change)).footnoteText? (node.redress change) =
      ((ofTree tree).footnoteText? node).map (·.map (Node.redress change)) := by
  rw [footnoteText?, footnoteText?, Node.kind_redress, Node.children_redress]
  cases node.kind with
  | footnoteReference label =>
      cases label with
      | some label =>
          simp only [Kind.map, Kind.bare, Kind.redress, definition?_redress, Option.map_map]
          exact Option.map_congr fun definition _ => Node.children_redress change definition
      | none => cases node.children <;> rfl
  | _ => rfl

end Index
end OutlineWiki
