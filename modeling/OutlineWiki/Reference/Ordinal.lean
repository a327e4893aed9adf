import OutlineWiki.Text.Blank

/-!
Numbers of headlines and of captioned elements.
-/

namespace OutlineWiki

/-- The number of an element among its peers, or of a section along its path. -/
inductive Ordinal where
  | single (number : Nat)
  | dotted (numbers : List Nat)
  deriving DecidableEq, Repr

/-- The decimal digits of a number. -/
def digits (number : Nat) : List Char :=
  Nat.toDigits 10 number

namespace Ordinal

def text : Ordinal → List Char
  | single number => digits number
  | dotted numbers => Text.join ['.'] (numbers.map digits)

end Ordinal

end OutlineWiki
