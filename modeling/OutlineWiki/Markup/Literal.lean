import OutlineWiki.Reference.CodeLabel

/-!
Literal text as markup.

A literal block loses the labels of its lines and the indentation that its lines share,
and is then indented by four spaces. Literal text within a line stands between backticks
or, if it holds one itself, between tags.
-/

namespace OutlineWiki.Markup

open OutlineWiki.Text

/-- A literal text without the labels of its lines. -/
def stripLabels (value : List Char) : List Char :=
  joinLines ((lines value).map CodeLabel.strip)

/-- The number of spaces and tabs that a line starts with. -/
def indentation (line : List Char) : Nat :=
  (line.takeWhile isIndent).length

/-- The smallest indentation of the lines that are not blank. -/
def sharedIndentation (rows : List (List Char)) : Nat :=
  (((rows.filter fun line => !isBlankLine line).map indentation).min?).getD 0

/-- A text without the indentation that its lines share and without blanks at line ends. -/
def outdent (value : List Char) : List Char :=
  let rows := lines value
  joinLines (rows.map fun line => trimEnd (line.drop (sharedIndentation rows)))

/-- A line of a literal block with its line end. -/
def literalLine (line : List Char) : List Char :=
  if isBlankLine line then ['\n'] else List.replicate 4 ' ' ++ line ++ ['\n']

/-- The markup of a literal block. -/
def literalBlock (value : List Char) : List Char :=
  (lines (outdent (stripLabels value))).flatMap literalLine

/-- The markup of literal text within a line. -/
def literalRun (value : List Char) : List Char :=
  if !value.contains '\x60' then
    '\x60' :: value ++ ['\x60']
  else if value.head? == some '\x60' || value.getLast? == some '\x60' then
    "<code> ".toList ++ value ++ " </code>".toList
  else
    "<code>".toList ++ value ++ "</code>".toList

end OutlineWiki.Markup
