import OutlineWiki.Text.Ranges
import OutlineWiki.Text.Case.Table

/-!
Letter case.

Tags and file extensions are compared without regard to the case of the letters
`A` to `Z`. Radio targets are compared in full lower case, where a capital sigma
becomes a final sigma at the end of a word and a dotted capital I keeps its dot.
-/

namespace OutlineWiki.Text

/-- Lower case for `A` to `Z` only. -/
def lowerLatin (text : List Char) : List Char :=
  text.map Char.toLower

/-- Equality up to the case of `A` to `Z`. -/
def sameLatin (a b : List Char) : Bool :=
  lowerLatin a == lowerLatin b

def isCased (c : Char) : Bool :=
  charInRanges c casedRanges

def isCaseIgnorable (c : Char) : Bool :=
  charInRanges c caseIgnorableRanges

/-- Whether a letter with case comes first once the ignorable characters are passed over. -/
def startsCased (text : List Char) : Bool :=
  match text.dropWhile isCaseIgnorable with
  | [] => false
  | c :: _ => isCased c

/-- The small letter of a capital within a run. -/
def CaseRun.lower? (run : CaseRun) (n : Nat) : Option Char :=
  if run.first ≤ n ∧ n ≤ run.last ∧ (n - run.first) % run.step = 0 then
    some (Char.ofNat (run.small + (n - run.first)))
  else
    none

/-- The lower case of a character on its own. -/
def lowerChar (c : Char) : List Char :=
  if c.toNat < 128 then
    [c.toLower]
  else if c.toNat = 0x130 then
    ['i', Char.ofNat 0x307]
  else
    [(caseRuns.findSome? fun run => run.lower? c.toNat).getD c]

/-- Lower case with the characters before the text at hand in reverse order. -/
def lowercaseAfter (before : List Char) : List Char → List Char
  | [] => []
  | c :: rest =>
    let lowered :=
      if c.toNat = 0x3A3 && startsCased before && !startsCased rest then
        [Char.ofNat 0x3C2]
      else
        lowerChar c
    lowered ++ lowercaseAfter (c :: before) rest

/-- Full lower case of a text. -/
def lowercase (text : List Char) : List Char :=
  lowercaseAfter [] text

end OutlineWiki.Text
