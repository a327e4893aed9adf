import OutlineWiki.Text.Blank

/-!
Search and replacement of a fixed pattern in a text.

Occurrences are found from left to right and do not overlap.
-/

namespace OutlineWiki.Text

/-- What follows the pattern at the start of a text, or none when it does not start so. -/
def dropStart? : List Char → List Char → Option (List Char)
  | [], text => some text
  | _ :: _, [] => none
  | p :: pattern, c :: text => if p == c then dropStart? pattern text else none

/-- What precedes the pattern at the end of a text, or none when it does not end so. -/
def dropEnd? (pattern text : List Char) : Option (List Char) :=
  (dropStart? pattern.reverse text.reverse).map List.reverse

/-- Splits a text around the first occurrence of a pattern. -/
def splitFirst? (pattern : List Char) : List Char → Option (List Char × List Char)
  | [] => if pattern.isEmpty then some ([], []) else none
  | c :: text =>
    match dropStart? pattern (c :: text) with
    | some rest => some ([], rest)
    | none => (splitFirst? pattern text).map fun split => (c :: split.1, split.2)

/-- Splits a text around the last occurrence of a pattern. -/
def splitLast? (pattern : List Char) : List Char → Option (List Char × List Char)
  | [] => if pattern.isEmpty then some ([], []) else none
  | c :: text =>
    match splitLast? pattern text with
    | some split => some (c :: split.1, split.2)
    | none => (dropStart? pattern (c :: text)).map fun rest => ([], rest)

def contains (pattern text : List Char) : Bool :=
  (splitFirst? pattern text).isSome

/-- Replaces the first occurrence of a pattern. -/
def replaceFirst (pattern replacement text : List Char) : List Char :=
  match splitFirst? pattern text with
  | some (before, after) => before ++ replacement ++ after
  | none => text

/-- Replaces what follows; the number counts the characters of a match still to be passed over. -/
def replaceFrom (pattern replacement : List Char) : Nat → List Char → List Char
  | _, [] => []
  | 0, c :: text =>
    if (dropStart? pattern (c :: text)).isSome then
      replacement ++ replaceFrom pattern replacement (pattern.length - 1) text
    else
      c :: replaceFrom pattern replacement 0 text
  | skip + 1, _ :: text => replaceFrom pattern replacement skip text

/-- Replaces every occurrence of a pattern that is not empty, from left to right. -/
def replaceAll (pattern replacement text : List Char) : List Char :=
  replaceFrom pattern replacement 0 text

theorem eq_append_of_dropStart? {pattern text rest : List Char}
    (h : dropStart? pattern text = some rest) : text = pattern ++ rest := by
  induction pattern generalizing text with
  | nil => simpa [dropStart?] using h
  | cons p pattern ih =>
    cases text with
    | nil => simp [dropStart?] at h
    | cons c text =>
      simp only [dropStart?] at h
      split at h
      · next hp => simp [ih h, eq_of_beq hp]
      · simp at h

theorem dropStart?_append (pattern rest : List Char) :
    dropStart? pattern (pattern ++ rest) = some rest := by
  induction pattern with
  | nil => rfl
  | cons p pattern ih => simp [dropStart?, ih]

end OutlineWiki.Text
