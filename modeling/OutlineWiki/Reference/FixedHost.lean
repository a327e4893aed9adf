import OutlineWiki.Outline.Index
import OutlineWiki.Reference.Host

/-!
A host that answers from fixed tables.

Nodes are given by their numbers, and a number of no node is no answer. Questions
without an entry get the usual answer, or none.
-/

namespace OutlineWiki

/-- Where a link leads: to a file, or to the node with a number. -/
inductive FixedReference where
  | file (name : String)
  | node (id : Nat)

structure FixedAnswers where
  crossReferences : List (String × FixedReference) := []
  radioTargets : List (String × Nat) := []
  fuzzyTargets : List (String × Nat) := []
  ordinals : List (Nat × Ordinal) := []
  codeReferences : List (String × String × String) := []
  /-- The paths of all inline images, unless the extension of a path decides. -/
  images : Option (List String) := none
  strings : List (String × String) := []
  markingColumns : List (Nat × Bool) := []
  drawing : Option String := none

namespace FixedAnswers

/-- The node that a table of paths gives for a link. -/
def target (index : Index) (table : List (String × Nat)) (link : Node) : Option Node :=
  match link.kind with
  | .link _ path => (table.lookup path).bind index.node?
  | _ => none

def crossReference (answers : FixedAnswers) (index : Index) (link : Node) :
    Option CrossReference :=
  match link.kind with
  | .link _ path =>
    match answers.crossReferences.lookup path with
    | some (.file name) => some (.external name)
    | some (.node id) => (index.node? id).map .internal
    | none => none
  | _ => none

/-- The host with the given answers about a tree. -/
def host (answers : FixedAnswers) (index : Index) : Host where
  crossReference := answers.crossReference index
  radioTarget := target index answers.radioTargets
  fuzzyTarget := target index answers.fuzzyTargets
  ordinal node := answers.ordinals.lookup node.id
  codeReference label _ :=
    (answers.codeReferences.lookup (String.ofList label)).map fun entry =>
      (entry.1.toList, entry.2.toList)
  showsImage path extensions :=
    match answers.images with
    | some images => images.contains path
    | none => Path.hasExtension path.toList (extensions.map String.toList)
  localize key := (answers.strings.lookup key).getD key
  hasMarkingColumn table :=
    (answers.markingColumns.lookup table.id).getD table.hasMarkingColumn
  drawing table :=
    match answers.drawing with
    | some text => text.toList
    | none => table.preformattedDrawing

end FixedAnswers

end OutlineWiki
