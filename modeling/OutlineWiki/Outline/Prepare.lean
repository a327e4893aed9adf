import OutlineWiki.Outline.Node

/-!
Preparation of a tree for export.

Every block below the root gets at least one blank line after it, unless it is laid
out line by line. Then the nodes are numbered in document order from zero at the
root, whatever numbers they had before.
-/

namespace OutlineWiki

namespace Kind

variable {α : Type}

/-- Numbers a list of nodes in order, given how each of them is numbered. -/
def numberAll : List (Nat → α × Nat) → Nat → List α × Nat
  | [], next => ([], next)
  | node :: nodes, next =>
    let first := node next
    let rest := numberAll nodes first.2
    (first.1 :: rest.1, rest.2)

/-- Numbers the nodes that a kind holds. -/
def numberHeld : Kind (Nat → α × Nat) → Nat → Kind α × Nat
  | headline info title, next =>
    let numbered := numberAll title next
    (headline info numbered.1, numbered.2)
  | listItem checkbox (some tag), next =>
    let numbered := numberAll tag next
    (listItem checkbox (some numbered.1), numbered.2)
  | kind, next => (kind.bare, next)

end Kind

namespace Parts

variable {α : Type}

/-- Numbers all that a node owns in document order. -/
def number (parts : Parts (Nat → α × Nat)) (next : Nat) : Parts α × Nat :=
  let caption :=
    match parts.caption with
    | none => (none, next)
    | some nodes =>
      let numbered := Kind.numberAll nodes next
      (some numbered.1, numbered.2)
  let kind := parts.kind.numberHeld caption.2
  let children := Kind.numberAll parts.children kind.2
  (⟨kind.1, children.1, caption.1⟩, children.2)

end Parts

namespace Node

/-- Whether preparation sees to a blank line after the node. -/
def isSpaced (node : Node) : Bool :=
  node.kind.isBlock && !node.kind.isLine

/-- The node with at least one blank line after it, if it is a block that needs one. -/
def spaced (node : Node) : Node :=
  if node.isSpaced then
    { node with postBlank := some (max (node.postBlank.getD 0) 1) }
  else
    node

/-- Separates the blocks below the root. -/
def separateBlocks (root : Node) : Node :=
  root.withParts (root.parts.map (transform spaced))

/-- Numbers the nodes of a tree from the given number on, and gives the next free number. -/
def numberFrom : Node → Nat → Node × Nat :=
  fold fun node parts next =>
    let numbered := parts.number (next + 1)
    ({ node.withParts numbered.1 with id := next }, numbered.2)

/-- Separates the blocks of a tree and numbers its nodes in document order. -/
def prepare (root : Node) : Node :=
  (root.separateBlocks.numberFrom 0).1

theorem numberFrom_eq (node : Node) (next : Nat) :
    node.numberFrom next =
      let numbered := (node.parts.map numberFrom).number (next + 1)
      ({ node.withParts numbered.1 with id := next }, numbered.2) := by
  rw [numberFrom, fold_eq]

end Node

end OutlineWiki
