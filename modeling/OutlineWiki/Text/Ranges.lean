/-!
Membership of a number in an ascending list of closed ranges.
-/

namespace OutlineWiki.Text

/-- Whether one of the ranges, which are in ascending order, holds the number. -/
def inRanges (n : Nat) : List (Nat × Nat) → Bool
  | [] => false
  | (first, last) :: rest => first ≤ n && (n ≤ last || inRanges n rest)

/-- Whether the ranges hold the code point of a character. -/
def charInRanges (c : Char) (ranges : List (Nat × Nat)) : Bool :=
  inRanges c.toNat ranges

end OutlineWiki.Text
