import Mathlib.Data.List.Forall2
import OutlineWiki.Proofs.Outline.Images
import OutlineWiki.Proofs.Outline.Numbering

/-!
What preparation leaves as it is.

Preparation changes nothing of the nodes but the blank lines after them and their numbers. So
the walk of a tree goes through nodes with the same surfaces before and after: the attributes
of a node, and what parts it has.
-/

namespace OutlineWiki

namespace Kind

variable {α β γ : Type}

theorem bare_map (f : α → β) (kind : Kind α) : ((kind.map f).bare : Kind γ) = kind.bare := by
  cases kind with
  | listItem checkbox tag => cases tag <;> rfl
  | _ => rfl

theorem bare_numberHeld (f : α → Nat → β × Nat) (kind : Kind α) (next : Nat) :
    (((kind.map f).numberHeld next).1.bare : Kind γ) = kind.bare := by
  cases kind with
  | listItem checkbox tag => cases tag <;> rfl
  | _ => rfl

theorem isBlock_bare (kind : Kind α) : (kind.bare : Kind β).isBlock = kind.isBlock := by
  cases kind <;> rfl

theorem isLine_bare (kind : Kind α) : (kind.bare : Kind β).isLine = kind.isLine := by
  cases kind <;> rfl

theorem isSilent_bare (kind : Kind α) : (kind.bare : Kind β).isSilent = kind.isSilent := by
  cases kind <;> rfl

theorem isSimple_bare (kind : Kind α) : (kind.bare : Kind β).isSimple = kind.isSimple := by
  cases kind <;> rfl

end Kind

/-- The attributes of a node apart from its number and the space after it. -/
structure Surface where
  kind : Kind Unit
  name : Option String
  isCaptioned : Bool
  isLeaf : Bool

/-- Whether a node with this surface gives the text of the footnote with the label. -/
def Surface.definesFootnote (label : String) (surface : Surface) : Bool :=
  match surface.kind with
  | .footnoteDefinition own => own == label
  | .footnoteReference (some own) => own == label && !surface.isLeaf
  | _ => false

/-- The label of a node with this surface. -/
def Surface.label? (surface : Surface) : Option String :=
  match surface.kind with
  | .footnoteReference label => label
  | .footnoteDefinition label => some label
  | _ => none

namespace Node

def surface (node : Node) : Surface :=
  ⟨node.kind.bare, node.name, node.caption.isSome, node.children.isEmpty⟩

theorem isBlock_surface (node : Node) : node.surface.kind.isBlock = node.kind.isBlock :=
  Kind.isBlock_bare node.kind

theorem isSilent_surface (node : Node) : node.surface.kind.isSilent = node.kind.isSilent :=
  Kind.isSilent_bare node.kind

theorem definesFootnote_surface (label : String) (node : Node) :
    node.surface.definesFootnote label = node.definesFootnote label := by
  rw [Surface.definesFootnote, surface, definesFootnote]
  cases node.kind with
  | footnoteReference own => cases own <;> rfl
  | _ => rfl

theorem label?_surface (node : Node) : node.surface.label? = node.label? := by
  rw [Surface.label?, surface, label?]
  cases node.kind <;> rfl

theorem unnoticed_surface (node : Node) :
    node.Unnoticed ↔ node.surface.name = none ∧ node.surface.isCaptioned = false ∧
      node.surface.kind.isSimple = true := by
  rw [surface, Kind.isSimple_bare, Option.isSome_eq_false_iff, Option.isNone_iff_eq_none]
  exact ⟨fun h => ⟨h.name, h.caption, h.kind⟩, fun h => ⟨h.1, h.2.1, h.2.2⟩⟩

theorem surface_spaced (node : Node) : node.spaced.surface = node.surface := by
  rw [spaced]
  split <;> rfl

theorem parts_spaced (node : Node) : node.spaced.parts = node.parts := by
  rw [spaced]
  split <;> rfl

theorem surface_withParts_map (node : Node) (f : Node → Node) :
    (node.withParts (node.parts.map f)).surface = node.surface := by
  simp only [surface, withParts, parts, Parts.map, Kind.bare_map, Option.isSome_map,
    List.isEmpty_map]

/-- Walks with the same observations follow from such walks below the tops. -/
theorem walk_map_of_members {α : Type} {f : Node → α} {node other : Node}
    (h : f other = f node)
    (hm : List.Forall₂ (fun member twin => twin.walk.map f = member.walk.map f)
      node.members other.members) :
    other.walk.map f = node.walk.map f := by
  rw [walk_eq, walk_eq, List.map_cons, List.map_cons, h]
  refine congrArg (List.cons _) ?_
  generalize node.members = members, other.members = twins at hm
  induction hm with
  | nil => rfl
  | cons hfirst _ ih =>
      rw [List.flatMap_cons, List.flatMap_cons, List.map_append, List.map_append, hfirst, ih]

theorem walk_surface_transform_spaced (node : Node) :
    (node.transform spaced).walk.map surface = node.walk.map surface := by
  induction node using member_induction with
  | step node ih =>
      rw [transform_eq]
      refine walk_map_of_members ?_ ?_
      · rw [surface_spaced, surface_withParts_map]
      · rw [members, members, parts_spaced]
        change List.Forall₂ _ node.parts.members (node.parts.map (transform spaced)).members
        rw [Parts.members_map, List.forall₂_map_right_iff, List.forall₂_same]
        exact ih

theorem walk_surface_separateBlocks (root : Node) :
    root.separateBlocks.walk.map surface = root.walk.map surface := by
  refine walk_map_of_members (surface_withParts_map root _) ?_
  change List.Forall₂ _ root.parts.members (root.parts.map (transform spaced)).members
  rw [Parts.members_map, List.forall₂_map_right_iff, List.forall₂_same]
  exact fun member _ => walk_surface_transform_spaced member

/-- The node with numbers in the order of the walk. -/
def Numbered (node numbered : Node) : Prop :=
  ∃ first, numbered = (node.numberFrom first).1

theorem forall₂_numberAll (nodes : List Node) (next : Nat) :
    List.Forall₂ Numbered nodes (Kind.numberAll (nodes.map numberFrom) next).1 := by
  induction nodes generalizing next with
  | nil => exact .nil
  | cons node nodes ih => exact .cons ⟨next, rfl⟩ (ih _)

theorem forall₂_numberHeld (kind : Kind Node) (next : Nat) :
    List.Forall₂ Numbered kind.lists.flatten
      ((kind.map numberFrom).numberHeld next).1.lists.flatten := by
  cases kind with
  | headline info title =>
      simpa [Kind.lists, Kind.map, Kind.numberHeld] using forall₂_numberAll title next
  | listItem checkbox tag =>
      cases tag with
      | none => exact .nil
      | some tag => simpa [Kind.lists, Kind.map, Kind.numberHeld] using forall₂_numberAll tag next
  | _ => exact .nil

/-- The members of a numbered node are numbered themselves. -/
theorem forall₂_members_numberFrom (node : Node) (next : Nat) :
    List.Forall₂ Numbered node.members (node.numberFrom next).1.members := by
  rw [numberFrom_eq]
  obtain ⟨kind, children, postBlank, name, caption, id⟩ := node
  have hrest : ∀ start, List.Forall₂ Numbered (kind.lists.flatten ++ children)
      (((kind.map numberFrom).numberHeld start).1.lists.flatten ++
        (Kind.numberAll (children.map numberFrom)
          ((kind.map numberFrom).numberHeld start).2).1) := fun start =>
    List.rel_append (forall₂_numberHeld kind start) (forall₂_numberAll children _)
  cases caption with
  | none =>
      simpa [members, Parts.members, Parts.lists, parts, withParts, Parts.map, Parts.number] using
        hrest (next + 1)
  | some caption =>
      simpa [members, Parts.members, Parts.lists, parts, withParts, Parts.map, Parts.number] using
        List.rel_append (forall₂_numberAll caption (next + 1)) (hrest _)

theorem surface_numberFrom (node : Node) (next : Nat) :
    (node.numberFrom next).1.surface = node.surface := by
  rw [numberFrom_eq]
  obtain ⟨kind, children, postBlank, name, caption, id⟩ := node
  have hleaf : ∀ start, (Kind.numberAll (children.map numberFrom) start).1.isEmpty =
      children.isEmpty := by
    intro start
    cases children <;> rfl
  cases caption <;>
    simp [surface, parts, withParts, Parts.map, Parts.number, Kind.bare_numberHeld, hleaf]

/-- Numbering keeps along a walk what it keeps of each node. -/
theorem walk_map_numberFrom {α : Type} {f : Node → α}
    (hf : ∀ node next, f (node.numberFrom next).1 = f node) (node : Node) (next : Nat) :
    (node.numberFrom next).1.walk.map f = node.walk.map f := by
  induction node using member_induction generalizing next with
  | step node ih =>
      refine walk_map_of_members (hf node next) ?_
      have hmembers := (List.forall₂_and_left _ _).mpr ⟨ih, forall₂_members_numberFrom node next⟩
      refine hmembers.imp fun member numbered hm => ?_
      obtain ⟨hwalk, first, rfl⟩ := hm
      exact hwalk first

theorem walk_surface_numberFrom (node : Node) (next : Nat) :
    (node.numberFrom next).1.walk.map surface = node.walk.map surface :=
  walk_map_numberFrom surface_numberFrom node next

/-- Preparation keeps the surfaces of all nodes. -/
theorem walk_surface_prepare (root : Node) :
    root.prepare.walk.map surface = root.walk.map surface :=
  (walk_surface_numberFrom root.separateBlocks 0).trans (walk_surface_separateBlocks root)

end Node
end OutlineWiki
