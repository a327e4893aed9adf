import OutlineWiki.Text.Blank

/-!
Lines of a text.

A line ends at a newline, and a carriage return just before that newline belongs
to the line end. A last line without a newline counts when it is not empty, and
keeps a carriage return at its end.
-/

namespace OutlineWiki.Text

/-- The pieces between the occurrences of a character, one more than occurrences. -/
def splitOn (mark : Char) (text : List Char) : List (List Char) :=
  text.foldr
    (fun c pieces =>
      if c == mark then
        [] :: pieces
      else
        match pieces with
        | [] => [[c]]
        | piece :: rest => (c :: piece) :: rest)
    [[]]

/-- Removes one carriage return from the end. -/
def dropReturn (line : List Char) : List Char :=
  if line.getLast? = some '\r' then line.dropLast else line

/-- Turns the pieces between newlines into lines. -/
def linesOfPieces : List (List Char) → List (List Char)
  | [] => []
  | [last] => if last.isEmpty then [] else [last]
  | piece :: rest => dropReturn piece :: linesOfPieces rest

/-- The lines of a text without their line ends. -/
def lines (text : List Char) : List (List Char) :=
  linesOfPieces (splitOn '\n' text)

/-- Joins lines with newlines between neighbours. -/
def joinLines (rows : List (List Char)) : List Char :=
  join ['\n'] rows

theorem splitOn_ne_nil (mark : Char) (text : List Char) : splitOn mark text ≠ [] := by
  induction text with
  | nil => simp [splitOn]
  | cons c text ih =>
    simp only [splitOn, List.foldr_cons]
    split
    · simp
    · split <;> simp

end OutlineWiki.Text
