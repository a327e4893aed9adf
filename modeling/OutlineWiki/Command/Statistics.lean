import OutlineWiki.Outline.Decode
import OutlineWiki.Path
import OutlineWiki.Reference.Ordinal

/-!
Statistics of a tree as a text.
-/

namespace OutlineWiki.Statistics

/-- How many nodes of a tree pass a test. -/
def count (root : Node) (test : Node → Bool) : Nat :=
  root.walk.countP test

/-- The number of words of a tree. -/
def wordCount (root : Node) : Nat :=
  (Text.words root.plainText).length

/-- All names of kinds in the order of their letters. -/
def sortedNames : List String :=
  ("unknown" :: Node.kindNames).mergeSort fun a b => a ≤ b

/-- A line with a name and a value. -/
def row (name : String) (value : List Char) : List Char :=
  name.toList ++ ": ".toList ++ value ++ ['\n']

def rule : List Char :=
  List.replicate 40 '─' ++ ['\n']

/-- A line for each kind of which the tree has a node. -/
def kindRows (root : Node) : List Char :=
  sortedNames.flatMap fun name =>
    let number := count root fun node => node.kind.name == name
    if number = 0 then [] else row name (digits number)

def isNamed (name : String) (node : Node) : Bool :=
  node.kind.name == name

/-- The statistics of a tree that was read from a file. -/
def text (path : String) (root : Node) : List Char :=
  "Tree Information\n".toList ++ rule ++
    row "File" ((Path.fileName? path.toList).getD []) ++
    row "Headlines" (digits (count root (isNamed "headline"))) ++
    row "Links" (digits (count root (isNamed "link"))) ++
    row "Footnote references" (digits (count root (isNamed "footnote_reference"))) ++
    row "Words" (digits (wordCount root)) ++
    "\nNode Kinds\n".toList ++ rule ++ kindRows root

end OutlineWiki.Statistics
