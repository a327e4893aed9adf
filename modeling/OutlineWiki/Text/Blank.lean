/-!
Blank characters and the trimming and word splitting that rest on them.

A character is blank when it has the property White_Space. Trimming removes the
longest blank run at an end of a text, and the words of a text are its maximal
runs of characters that are not blank.
-/

namespace OutlineWiki.Text

/-- The characters with the property White_Space. -/
def isBlank (c : Char) : Bool :=
  let n := c.toNat
  (9 ≤ n && n ≤ 13) || n == 32 || n == 0x85 || n == 0xA0 || n == 0x1680 ||
    (0x2000 ≤ n && n ≤ 0x200A) || n == 0x2028 || n == 0x2029 || n == 0x202F ||
    n == 0x205F || n == 0x3000

/-- Spaces and tabs, the blanks that can indent a line. -/
def isIndent (c : Char) : Bool :=
  c == ' ' || c == '\t'

/-- Removes the longest run at the end whose characters all satisfy the test. -/
def dropTrailing (test : Char → Bool) (text : List Char) : List Char :=
  (text.reverse.dropWhile test).reverse

def trimStart (text : List Char) : List Char :=
  text.dropWhile isBlank

def trimEnd (text : List Char) : List Char :=
  dropTrailing isBlank text

def trim (text : List Char) : List Char :=
  trimEnd (trimStart text)

/-- A text without any character that is not blank. -/
def isBlankLine (text : List Char) : Bool :=
  text.all isBlank

/-- Splits a text into what precedes its first blank and all later words. -/
def splitWords (text : List Char) : List Char × List (List Char) :=
  text.foldr
    (fun c split =>
      if isBlank c then
        ([], if split.1.isEmpty then split.2 else split.1 :: split.2)
      else
        (c :: split.1, split.2))
    ([], [])

/-- The maximal runs of characters that are not blank, in order. -/
def words (text : List Char) : List (List Char) :=
  let split := splitWords text
  if split.1.isEmpty then split.2 else split.1 :: split.2

/-- Joins texts with a separator between neighbours. -/
def join (separator : List Char) (texts : List (List Char)) : List Char :=
  separator.intercalate texts

/-- Puts exactly one space between the words and none around them. -/
def normalizeBlanks (text : List Char) : List Char :=
  join [' '] (words text)

theorem isBlank_of_isIndent {c : Char} (h : isIndent c = true) : isBlank c = true := by
  simp only [isIndent, Bool.or_eq_true, beq_iff_eq] at h
  rcases h with rfl | rfl <;> rfl

theorem dropTrailing_append_singleton (test : Char → Bool) (text : List Char) (c : Char) :
    dropTrailing test (text ++ [c]) =
      if test c then dropTrailing test text else text ++ [c] := by
  simp only [dropTrailing, List.reverse_append, List.reverse_cons, List.reverse_nil,
    List.nil_append, List.singleton_append, List.dropWhile_cons]
  split <;> simp

end OutlineWiki.Text
