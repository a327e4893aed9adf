import OutlineWiki.Outline.Index

/-!
Numbers of footnotes.

A footnote gets the next number when it is first referred to, and keeps it. References
with one label share a footnote, and a reference without a label has one of its own.
-/

namespace OutlineWiki

/-- A footnote, by the label that its references share or by its only reference. -/
inductive Footnote where
  | labelled (label : String)
  | anonymous (id : Nat)
  deriving DecidableEq, Repr

/-- The footnote that a reference refers to. -/
def Node.footnote? (node : Node) : Option Footnote :=
  match node.kind with
  | .footnoteReference (some label) => some (.labelled label)
  | .footnoteReference none => some (.anonymous node.id)
  | _ => none

/-- The footnotes that have numbers, each by its first reference, in order of numbers. -/
structure Footnotes where
  references : List Node := []

namespace Footnotes

def size (footnotes : Footnotes) : Nat :=
  footnotes.references.length

def isEmpty (footnotes : Footnotes) : Bool :=
  footnotes.references.isEmpty

/-- The number of a footnote, if it has one. -/
def get? (footnotes : Footnotes) (footnote : Footnote) : Option Nat :=
  (footnotes.references.findIdx? fun reference => reference.footnote? == some footnote).map (· + 1)

/-- The first reference of the footnote at a place. -/
def referenceAt? (footnotes : Footnotes) (place : Nat) : Option Node :=
  footnotes.references[place]?

/-- The number of the footnote of a reference, which gets the next number if it has none. -/
def number (footnotes : Footnotes) (reference : Node) : Option Nat × Footnotes :=
  match reference.footnote? with
  | none => (none, footnotes)
  | some footnote =>
    match footnotes.get? footnote with
    | some number => (some number, footnotes)
    | none => (some (footnotes.size + 1), ⟨footnotes.references ++ [reference]⟩)

end Footnotes

/-- The nodes that make the text of the footnote that a reference refers to. -/
def Index.footnoteText? (index : Index) (reference : Node) : Option (List Node) :=
  match reference.kind with
  | .footnoteReference (some label) => (index.definition? label).map (·.children)
  | .footnoteReference none =>
    if reference.children.isEmpty then none else some reference.children
  | _ => none

end OutlineWiki
