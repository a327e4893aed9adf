import OutlineWiki.Outline.Kind
import OutlineWiki.Text.Lines

/-!
Layout of list items.

An item has a bullet on every line. A mark for its checkbox and tag goes before its
first line of text, or on a line of its own when a nested list comes first. The lines of
a nested list keep their bullets and get that of the item before them.
-/

namespace OutlineWiki.Markup

open OutlineWiki.Text

/-- The bullet of the items of a list. -/
def bullet : ListType → Char
  | .ordered => '#'
  | .unordered | .descriptive => '*'

def checkboxMark : Checkbox → List Char
  | .none => []
  | .on => "☑ ".toList
  | .off => "☐ ".toList
  | .partly => "<code>[-]</code> ".toList

/-- A bulleted line. -/
def itemLine (bullet : Char) (text : List Char) : List Char :=
  bullet :: ' ' :: text ++ ['\n']

/-- A line of a nested list under the bullet of the item around it. -/
def nestedLine (bullet : Char) (line : List Char) : List Char :=
  bullet :: trimEnd line ++ ['\n']

/-- The lines of a text that are not blank. -/
def shownLines (text : List Char) : List (List Char) :=
  (lines text).filter fun line => !isBlankLine line

/-- The line that a mark gets for itself. -/
def markLine (bullet : Char) : Option (List Char) → List Char
  | none => []
  | some mark => itemLine bullet (trimEnd mark)

/-- Lines of text, the first of them behind the mark if there still is one. -/
def textLines (bullet : Char) (mark : Option (List Char)) : List (List Char) → List Char
  | [] => []
  | line :: rest =>
    let first :=
      match mark with
      | none => trimEnd line
      | some mark => mark ++ trim line
    itemLine bullet first ++ rest.flatMap fun line => itemLine bullet (trimEnd line)

/-- The lines of an item, given for each child whether it is a list and what its markup is. -/
def itemLines (bullet : Char) : Option (List Char) → List (Bool × List Char) → List Char
  | mark, [] => markLine bullet mark
  | mark, (true, markup) :: rest =>
    markLine bullet mark ++ (shownLines markup).flatMap (nestedLine bullet) ++
      itemLines bullet none rest
  | mark, (false, markup) :: rest =>
    let shown := shownLines markup
    textLines bullet mark shown ++ itemLines bullet (if shown.isEmpty then mark else none) rest

end OutlineWiki.Markup
