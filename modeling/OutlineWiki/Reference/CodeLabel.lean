import OutlineWiki.Text.Lines
import OutlineWiki.Text.Search

/-!
Labels of code lines.

A line of a literal block is labelled by a marker `(ref:label)` at its end. The label is
neither empty nor does it hold a blank, and the last marker of the line counts.
-/

namespace OutlineWiki.CodeLabel

open OutlineWiki.Text

/-- What opens the marker of a label. -/
def opening : List Char :=
  "(ref:".toList

/-- Whether a text can be a label. -/
def isLabel (text : List Char) : Bool :=
  !text.isEmpty && !text.any isBlank

/-- Splits a labelled line into what precedes the marker and the label. -/
def split? (line : List Char) : Option (List Char × List Char) :=
  match splitLast? opening (trimEnd line) with
  | none => none
  | some (code, rest) =>
    match dropEnd? [')'] rest with
    | none => none
    | some label => if isLabel label then some (code, label) else none

/-- The label of a line. -/
def ofLine? (line : List Char) : Option (List Char) :=
  (split? line).map (·.2)

/-- A line without its marker and the blanks before the marker. -/
def strip (line : List Char) : List Char :=
  match split? line with
  | none => line
  | some (code, _) => trimEnd code

/-- The labels of a literal text, each with the number of its line from the given one on. -/
def ofLines (number : Nat) : List (List Char) → List (List Char × Nat)
  | [] => []
  | line :: rest =>
    match ofLine? line with
    | none => ofLines (number + 1) rest
    | some label => (label, number) :: ofLines (number + 1) rest

end OutlineWiki.CodeLabel
