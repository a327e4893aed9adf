import OutlineWiki.Outline.Node
import OutlineWiki.Path
import OutlineWiki.Reference.Ordinal

/-!
What an export asks about a document.

The answers depend on more than a tree may tell: where the targets of links are, how
elements are numbered, and how fixed strings are worded. A host gives these answers.
For some questions there is a usual answer, which a host gives unless it knows better.
-/

namespace OutlineWiki

/-- Where a link to an identifier leads. -/
inductive CrossReference where
  | external (file : String)
  | internal (target : Node)

namespace Node

/-- The caption of an element, if it holds any node. -/
def shownCaption? (node : Node) : Option (List Node) :=
  node.caption.filter fun caption => !caption.isEmpty

def isStandardRow (node : Node) : Bool :=
  match node.kind with
  | .tableRow .standard => true
  | _ => false

/-- The rows of a table that are not rules. -/
def standardRows (table : Node) : List Node :=
  table.children.filter isStandardRow

/-- The first row of a table that is not a rule. -/
def firstStandardRow? (table : Node) : Option Node :=
  table.standardRows.head?

/-- Texts that a marking column may hold. -/
def columnMarkers : List (List Char) :=
  [[], ['#'], ['!'], ['$'], ['*'], ['_'], ['^'], ['/']]

/-- The texts of the first cells of the rows, without blanks around them. -/
def firstColumn (table : Node) : List (List Char) :=
  table.standardRows.filterMap fun row =>
    row.children.head?.map fun cell => Text.trim cell.plainText

/-- Whether the first column only holds markers, and at least one that is not empty. -/
def hasMarkingColumn (table : Node) : Bool :=
  table.firstColumn.all (fun text => columnMarkers.contains text) &&
    table.firstColumn.any fun text => !text.isEmpty

/-- The drawing of a table as preformatted text. -/
def preformattedDrawing (table : Node) : List Char :=
  match table.kind with
  | .table _ (some value) =>
    "<pre>\n".toList ++ Text.trimEnd value.toList ++ "\n</pre>".toList
  | _ => []

end Node

/-- The answers that an export asks for. -/
structure Host where
  /-- Where a link to an identifier leads. -/
  crossReference : Node → Option CrossReference
  /-- The radio target that a link refers to. -/
  radioTarget : Node → Option Node
  /-- The likely target of a link that gives a name or title. -/
  fuzzyTarget : Node → Option Node
  /-- The number of a node. -/
  ordinal : Node → Option Ordinal
  /-- A template and its argument for a link to a labelled line of code with a description. -/
  codeReference : List Char → Option (List Char) → Option (List Char × List Char)
  /-- Whether a path leads to an image that is shown in place. -/
  showsImage : String → List String → Bool := fun path extensions =>
    Path.hasExtension path.toList (extensions.map String.toList)
  caption : Node → Option (List Node) := Node.shownCaption?
  /-- The wording of a fixed string. -/
  localize : String → String := fun key => key
  /-- Whether the first column of a table only marks the rows. -/
  hasMarkingColumn : Node → Bool := Node.hasMarkingColumn
  firstRow : Node → Option Node := Node.firstStandardRow?
  /-- The markup of a table that is given as a drawing. -/
  drawing : Node → List Char := Node.preformattedDrawing

end OutlineWiki
