import Mathlib.Data.List.TakeWhile
import OutlineWiki.Json.Scan

/-!
Words, numbers and strings in a text.

What is read as a scalar is a beginning of the text, and the same is read from it wherever
it stands, as long as a delimiter follows. A token is such a beginning. The proofs follow
the readers of digits, fractions and exponents: each stops at the first character that the
next part may begin with.
-/

namespace OutlineWiki

open Scan (isSpace)

/-- The text is at an end, or goes on with a space, a comma or a closing bracket. -/
def Delimited (text : List Char) : Prop :=
  ∀ c ∈ text.head?, isSpace c = true ∨ c = ',' ∨ c = ']' ∨ c = '\x7d'

theorem delimited_cons {c : Char} (h : c = ',' ∨ c = ']' ∨ c = '\x7d') (text : List Char) :
    Delimited (c :: text) := by
  intro d hd
  cases hd
  exact .inr h

theorem delimited_nil : Delimited [] := by
  intro c h
  cases h

variable {text rest : List Char}

theorem Delimited.not_numeral (h : Delimited text) :
    ∀ c ∈ text.head?, c.isDigit = false ∧ c ≠ '.' ∧ c ≠ 'e' ∧ c ≠ 'E' := by
  intro c hc
  have hends := h c hc
  simp only [isSpace, Bool.or_eq_true, beq_iff_eq] at hends
  obtain (((rfl | rfl) | rfl) | rfl) | rfl | rfl | rfl := hends <;> decide

namespace Numeral

/-- The digits at the start of a text end where other text follows that starts with no digit. -/
theorem digits_append (text : List Char) {other : List Char}
    (h : ∀ c ∈ other.head?, c.isDigit = false) :
    takeDigits (text.takeWhile Char.isDigit ++ other) = takeDigits text ∧
      dropDigits (text.takeWhile Char.isDigit ++ other) = other := by
  have hall : ∀ c ∈ text.takeWhile Char.isDigit, c.isDigit = true :=
    fun c hc => List.mem_takeWhile_imp hc
  have hnone : other.takeWhile Char.isDigit = [] ∧ other.dropWhile Char.isDigit = other := by
    cases other with
    | nil => exact ⟨rfl, rfl⟩
    | cons c other =>
        have hc := h c rfl
        simp [hc]
  unfold takeDigits dropDigits
  rw [List.takeWhile_append_of_pos hall, List.dropWhile_append_of_pos hall, hnone.1, hnone.2,
    List.append_nil]
  exact ⟨rfl, rfl⟩

/-- Digits that are asked for are there. -/
theorem exists_cons_of_takeDigits (h : (takeDigits text).isEmpty = false) :
    ∃ c more, text.takeWhile Char.isDigit = c :: more ∧ c.isDigit = true := by
  cases hdigits : text.takeWhile Char.isDigit with
  | nil => simp [takeDigits, hdigits] at h
  | cons c more =>
      have hmem : c ∈ text.takeWhile Char.isDigit := hdigits ▸ List.mem_cons_self
      exact ⟨c, more, rfl, List.mem_takeWhile_imp hmem⟩

theorem readExponentDigits_append {isNegative : Bool} {exponent : Option (Bool × List Nat)}
    (h : readExponentDigits isNegative text = some (exponent, rest)) :
    ∃ c body, c.isDigit = true ∧ text = c :: body ++ rest ∧
      ∀ other, (∀ c ∈ other.head?, c.isDigit = false) →
        readExponentDigits isNegative (c :: body ++ other) = some (exponent, other) := by
  rw [readExponentDigits] at h
  split at h
  · cases h
  · next hempty =>
      cases h
      obtain ⟨c, body, hbody, hc⟩ := exists_cons_of_takeDigits (Bool.eq_false_iff.mpr hempty)
      refine ⟨c, body, hc, ?_, fun other hother => ?_⟩
      · rw [← hbody]
        exact List.takeWhile_append_dropWhile.symm
      · obtain ⟨htake, hdrop⟩ := digits_append text hother
        rw [← hbody, readExponentDigits, htake, hdrop, if_neg hempty]

theorem readExponent_of_delimited {other : List Char} (h : Delimited other) :
    readExponent other = some (none, other) := by
  cases other with
  | nil => rfl
  | cons c other =>
      obtain ⟨_, _, he, hE⟩ := h.not_numeral c rfl
      simp [readExponent, he, hE]

theorem readExponent_append {exponent : Option (Bool × List Nat)}
    (h : readExponent text = some (exponent, rest)) :
    ∃ body, text = body ++ rest ∧ (∀ c ∈ body.head?, c = 'e' ∨ c = 'E') ∧
      ∀ other, Delimited other → readExponent (body ++ other) = some (exponent, other) := by
  have hdigit : ∀ other, Delimited other → ∀ c ∈ other.head?, c.isDigit = false :=
    fun other hother c hc => (hother.not_numeral c hc).1
  cases text with
  | nil =>
      cases h
      exact ⟨[], rfl, by simp, fun other hother => readExponent_of_delimited hother⟩
  | cons mark text =>
      by_cases hmark : mark = 'e' ∨ mark = 'E'
      · simp only [readExponent.eq_def, if_pos hmark] at h
        split at h
        · obtain ⟨c, body, hc, rfl, hread⟩ := readExponentDigits_append h
          refine ⟨mark :: '+' :: c :: body, rfl, by simpa using hmark, fun other hother => ?_⟩
          simpa [readExponent, if_pos hmark] using hread other (hdigit other hother)
        · obtain ⟨c, body, hc, rfl, hread⟩ := readExponentDigits_append h
          refine ⟨mark :: '-' :: c :: body, rfl, by simpa using hmark, fun other hother => ?_⟩
          simpa [readExponent, if_pos hmark] using hread other (hdigit other hother)
        · next text hplus hminus =>
            obtain ⟨c, body, hc, rfl, hread⟩ := readExponentDigits_append h
            refine ⟨mark :: c :: body, rfl, by simpa using hmark, fun other hother => ?_⟩
            have hsigns : c ≠ '+' ∧ c ≠ '-' := by
              constructor <;> (rintro rfl; cases hc)
            simp only [List.cons_append, readExponent.eq_def, if_pos hmark]
            split
            · next heq => exact absurd (List.cons.inj heq).1 hsigns.1
            · next heq => exact absurd (List.cons.inj heq).1 hsigns.2
            · exact hread other (hdigit other hother)
      · simp only [readExponent.eq_def, if_neg hmark] at h
        cases h
        exact ⟨[], rfl, by simp, fun other hother => readExponent_of_delimited hother⟩

theorem readFraction_append {fraction : List Nat} (h : readFraction text = some (fraction, rest)) :
    ∃ body, text = body ++ rest ∧ (∀ c ∈ body.head?, c = '.') ∧
      ∀ other, (∀ c ∈ other.head?, c.isDigit = false ∧ c ≠ '.') →
        readFraction (body ++ other) = some (fraction, other) := by
  simp only [readFraction] at h
  split at h
  · next text =>
      split at h
      · cases h
      · next hempty =>
          cases h
          refine ⟨'.' :: text.takeWhile Char.isDigit, ?_, by simp, fun other hother => ?_⟩
          · exact congrArg (List.cons '.') List.takeWhile_append_dropWhile.symm
          · obtain ⟨htake, hdrop⟩ := digits_append text fun c hc => (hother c hc).1
            rw [List.cons_append, readFraction, htake, hdrop, if_neg hempty]
  · cases h
    refine ⟨[], rfl, by simp, fun other hother => ?_⟩
    rw [List.nil_append, readFraction]
    rintro text rfl
    exact (hother '.' rfl).2 rfl

theorem readUnsigned_eq_some_iff {isNegative : Bool} {numeral : Numeral} :
    readUnsigned isNegative text = some (numeral, rest) ↔
      (takeDigits text).isEmpty = false ∧ (∀ digit more, takeDigits text ≠ 0 :: digit :: more) ∧
        ∃ fraction middle exponent, readFraction (dropDigits text) = some (fraction, middle) ∧
          readExponent middle = some (exponent, rest) ∧
          (⟨isNegative, takeDigits text, fraction, exponent⟩ : Numeral) = numeral := by
  rw [readUnsigned]
  split
  · next hdigits => simp [hdigits]
  · next hdigits => simp [hdigits]
  · next hnil hzero =>
      simp only [Option.bind_eq_some_iff, Option.map_eq_some_iff, Prod.mk.injEq, Prod.exists,
        List.isEmpty_eq_false_iff]
      constructor
      · rintro ⟨fraction, middle, hfraction, exponent, rest, hexponent, rfl, rfl⟩
        exact ⟨hnil, fun digit more => hzero digit more, fraction, middle, exponent, hfraction,
          hexponent, rfl⟩
      · rintro ⟨_, _, fraction, middle, exponent, hfraction, hexponent, rfl⟩
        exact ⟨fraction, middle, hfraction, exponent, rest, hexponent, rfl, rfl⟩

theorem readUnsigned_append {isNegative : Bool} {numeral : Numeral}
    (h : readUnsigned isNegative text = some (numeral, rest)) :
    ∃ c body, c.isDigit = true ∧ text = c :: body ++ rest ∧ ∀ other, Delimited other →
      readUnsigned isNegative (c :: body ++ other) = some (numeral, other) := by
  obtain ⟨hempty, hzero, fraction, middle, exponent, hfraction, hexponent, rfl⟩ :=
    readUnsigned_eq_some_iff.mp h
  obtain ⟨c, digits, hdigits, hc⟩ := exists_cons_of_takeDigits hempty
  obtain ⟨point, hpoint, hdot, hreadFraction⟩ := readFraction_append hfraction
  obtain ⟨power, rfl, hmark, hreadExponent⟩ := readExponent_append hexponent
  refine ⟨c, digits ++ (point ++ power), hc, ?_, fun other hother => ?_⟩
  · have hsplit : text.takeWhile Char.isDigit ++ dropDigits text = text :=
      List.takeWhile_append_dropWhile
    rw [hpoint, hdigits] at hsplit
    simpa using hsplit.symm
  · -- No part may begin with what the part before it goes on with.
    have hpower : ∀ d ∈ (power ++ other).head?, d.isDigit = false ∧ d ≠ '.' := by
      intro d hd
      cases power with
      | nil =>
          obtain ⟨hdigit, hnot, _⟩ := hother.not_numeral d hd
          exact ⟨hdigit, hnot⟩
      | cons mark power =>
          cases hd
          obtain rfl | rfl := hmark d rfl <;> decide
    have hrest : ∀ d ∈ (point ++ (power ++ other)).head?, d.isDigit = false := by
      intro d hd
      cases point with
      | nil => exact (hpower d hd).1
      | cons dot point =>
          cases hd
          obtain rfl := hdot d rfl
          rfl
    have hbody : c :: (digits ++ (point ++ power)) ++ other =
        text.takeWhile Char.isDigit ++ (point ++ (power ++ other)) := by
      simp [hdigits]
    obtain ⟨htake, hdrop⟩ := digits_append text hrest
    rw [hbody, readUnsigned_eq_some_iff, htake, hdrop]
    exact ⟨hempty, hzero, fraction, power ++ other, exponent, hreadFraction _ hpower,
      hreadExponent other hother, rfl⟩

/-- A numeral starts with a digit or its sign, and ends before a delimiter. -/
theorem read_append {numeral : Numeral} (h : read text = some (numeral, rest)) :
    ∃ c body, (c.isDigit = true ∨ c = '-') ∧ text = c :: body ++ rest ∧
      ∀ other, Delimited other → read (c :: body ++ other) = some (numeral, other) := by
  simp only [read] at h
  split at h
  · obtain ⟨c, body, hc, rfl, hread⟩ := readUnsigned_append h
    exact ⟨'-', c :: body, .inr rfl, rfl, fun other hother => hread other hother⟩
  · obtain ⟨c, body, hc, rfl, hread⟩ := readUnsigned_append h
    refine ⟨c, body, .inl hc, rfl, fun other hother => ?_⟩
    have hsign : c ≠ '-' := by
      rintro rfl
      cases hc
    simpa [read, hsign] using hread other hother

end Numeral

namespace Scan

variable {text rest : List Char}

theorem readPieces_append {pieces : List Piece} (h : readPieces text = some (pieces, rest)) :
    ∃ body, text = body ++ rest ∧ ∀ other, readPieces (body ++ other) = some (pieces, other) := by
  fun_induction readPieces text generalizing pieces rest with
  | case1 | case3 | case5 | case7 => cases h
  | case2 rest' =>
      cases h
      exact ⟨['"'], rfl, fun other => rfl⟩
  | case4 a b c d tail n hunit ih =>
      obtain ⟨⟨more, rest⟩, hmore, h⟩ := Option.map_eq_some_iff.mp h
      cases h
      obtain ⟨body, rfl, hread⟩ := ih hmore
      refine ⟨'\\' :: 'u' :: a :: b :: c :: d :: body, rfl, fun other => ?_⟩
      simp [readPieces, hunit, hread other]
  | case6 c tail hnot e hescape ih =>
      obtain ⟨⟨more, rest⟩, hmore, h⟩ := Option.map_eq_some_iff.mp h
      cases h
      obtain ⟨body, rfl, hread⟩ := ih hmore
      have hu : c ≠ 'u' := by
        rintro rfl
        cases hescape
      refine ⟨'\\' :: c :: body, rfl, fun other => ?_⟩
      simp [readPieces, hu, hescape, hread other]
  | case8 c tail hquote _ _ hplain ih =>
      obtain ⟨⟨more, rest⟩, hmore, h⟩ := Option.map_eq_some_iff.mp h
      cases h
      obtain ⟨body, rfl, hread⟩ := ih hmore
      have hslash : c ≠ '\\' := fun heq => hplain (.inl heq)
      refine ⟨c :: body, rfl, fun other => ?_⟩
      rw [List.cons_append, readPieces, if_neg hplain, hread other]
      · rfl
      · exact hquote
      · exact fun _ _ _ _ _ heq => absurd heq hslash
      · exact fun _ _ heq => absurd heq hslash

theorem readString_append {value : Option String} (h : readString text = some (value, rest)) :
    ∃ body, text = body ++ rest ∧ ∀ other, readString (body ++ other) = some (value, other) := by
  obtain ⟨⟨pieces, rest⟩, hpieces, h⟩ := Option.map_eq_some_iff.mp h
  cases h
  obtain ⟨body, rfl, hread⟩ := readPieces_append hpieces
  exact ⟨body, rfl, fun other => by simp [readString, hread other]⟩

theorem dropWord?_eq_some_iff {word : List Char} :
    dropWord? word text = some rest ↔ text = word ++ rest := by
  induction word generalizing text with
  | nil => simp [dropWord?]
  | cons w word ih =>
      cases text with
      | nil => simp [dropWord?]
      | cons c text =>
          by_cases hc : w = c
          · simp [dropWord?, hc, ih]
          · simp [dropWord?, hc, Ne.symm hc]

/-- Values without other values inside. -/
def isScalar : Scan → Bool
  | null | bool _ | number _ | string _ => true
  | _ => false

end Scan

open Scan (skipSpace readValue readWord readString)

theorem skipSpace_cons {c : Char} (h : isSpace c = false) (text : List Char) :
    skipSpace (c :: text) = c :: text := by
  simp [skipSpace, h]

/-- The text of a scalar, which is read in the same way wherever it stands. -/
structure Token where
  text : List Char
  value : Scan
  isScalar : value.isScalar = true
  reads : ∀ fuel rest, Delimited rest → readValue (fuel + 1) (text ++ rest) = (value, some rest)

namespace Token

variable {text rest : List Char}

/-- A string, by its text from the opening quote, which is left out, to the closing one. -/
def ofQuoted (quoted : List Char) (meaning : Option String)
    (h : ∀ rest, readString (quoted ++ rest) = some (meaning, rest)) : Token where
  text := '"' :: quoted
  value := .string meaning
  isScalar := rfl
  reads fuel rest _ := by
    rw [List.cons_append, readValue, skipSpace_cons rfl]
    simp only [h rest]

theorem exists_string {meaning : Option String} (h : readString text = some (meaning, rest)) :
    ∃ token : Token, '"' :: text = token.text ++ rest ∧ token.value = .string meaning := by
  obtain ⟨body, rfl, hread⟩ := Scan.readString_append h
  exact ⟨ofQuoted body meaning hread, rfl, rfl⟩

theorem exists_word {c : Char} {word : List Char} {scan meaning : Scan}
    (hc : ∀ fuel text, readValue (fuel + 1) (c :: text) = readWord word meaning text)
    (hm : meaning.isScalar = true) (h : readWord word meaning text = (scan, some rest)) :
    ∃ token : Token, c :: text = token.text ++ rest ∧ token.value = scan := by
  rw [readWord] at h
  split at h
  · next rest' hdrop =>
      cases h
      refine ⟨⟨c :: word, scan, hm, fun fuel other _ => ?_⟩, ?_, rfl⟩
      · rw [List.cons_append, hc, readWord, Scan.dropWord?_eq_some_iff.mpr rfl]
      · rw [Scan.dropWord?_eq_some_iff.mp hdrop]
        rfl
  · cases h

theorem exists_number {numeral : Numeral} (h : Numeral.read text = some (numeral, rest)) :
    ∃ token : Token, text = token.text ++ rest ∧ token.value = .number numeral.amount := by
  obtain ⟨c, body, hc, rfl, hread⟩ := Numeral.read_append h
  refine ⟨⟨c :: body, .number numeral.amount, rfl, fun fuel other hother => ?_⟩, rfl, rfl⟩
  have hstart : ∀ d, d.isDigit = false → d ≠ '-' → c ≠ d := by
    rintro d hdigit hsign rfl
    obtain hc | hc := hc
    · rw [hc] at hdigit
      cases hdigit
    · exact hsign hc
  have hspace : isSpace c = false := by
    simp only [isSpace, Bool.or_eq_false_iff, beq_eq_false_iff_ne]
    exact ⟨⟨⟨hstart _ rfl (by decide), hstart _ rfl (by decide)⟩, hstart _ rfl (by decide)⟩,
      hstart _ rfl (by decide)⟩
  have hread' := hread other hother
  rw [List.cons_append] at hread' ⊢
  rw [readValue, skipSpace_cons hspace]
  split
  case h_1 heq => cases heq
  case h_8 => rw [hread']
  all_goals next heq => exact absurd (List.cons.inj heq).1 (hstart _ rfl (by decide))

end Token
end OutlineWiki
