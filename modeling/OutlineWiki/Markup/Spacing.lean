import OutlineWiki.Outline.Node
import OutlineWiki.Text.Blank

/-!
Blank space after a node.

A block ends in exactly one newline before the blank lines that follow it. A node that
leaves no markup leaves no space either.
-/

namespace OutlineWiki.Markup

open OutlineWiki.Text

/-- Whether a character can stand in a blank line end. -/
def isLineEndBlank (c : Char) : Bool :=
  c == '\n' || isIndent c

/-- Removes the longest end that is made of newlines, each with spaces and tabs after it. -/
def dropLineEnds : List Char → List Char
  | [] => []
  | c :: rest =>
    if c == '\n' && rest.all isLineEndBlank then [] else c :: dropLineEnds rest

/-- A text with a single newline at its end. -/
def endLine (text : List Char) : List Char :=
  dropLineEnds text ++ ['\n']

/-- The markup of a node with the blank space after the node. -/
def withSpace (node : Node) (markup : List Char) : List Char :=
  if markup.isEmpty || node.kind.isDocument then
    markup
  else
    let count := (node.postBlank.getD 0).toNat
    if node.kind.isBlock then
      endLine markup ++ List.replicate count '\n'
    else
      markup ++ List.replicate count ' '

end OutlineWiki.Markup
