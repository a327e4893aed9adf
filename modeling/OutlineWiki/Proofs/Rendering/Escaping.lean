import OutlineWiki.Proofs.Rendering.Brackets

/-!
Escaped text, read back.

A reader of markup goes through it from left to right and takes each backslash together with the
character after it, so that every character is seen by itself or escaped. What is seen of an escaped
text are the characters of the text, and those that are active where they stand in it are the ones
that are seen escaped. No other markup is seen like this.
-/

namespace OutlineWiki.Markup

open OutlineWiki.Text

/-- A character of markup as a reader sees it. -/
structure Sign where
  char : Char
  /-- A backslash of its own introduces the character. -/
  isEscaped : Bool
  deriving DecidableEq, Repr

/-- What a reader sees who takes each backslash together with the character after it. -/
def signs : List Char → List Sign
  | '\\' :: c :: rest => ⟨c, true⟩ :: signs rest
  | c :: rest => ⟨c, false⟩ :: signs rest
  | [] => []

/-- Replaces each backslash and the character after it by that character. -/
def unescape (text : List Char) : List Char :=
  (signs text).map Sign.char

/-- The markup in which a character is seen by itself or escaped. -/
def Sign.markup (sign : Sign) : List Char :=
  if sign.isEscaped then ['\\', sign.char] else [sign.char]

/-- A character of a text is active between what stands before it and after it. -/
def IsActiveAt (before : List Char) (c : Char) (after : List Char) : Prop :=
  c ∈ activeMarks ∨ (c = '#' ∧ before.getLast? = some '\n') ∨ (c = '!' ∧ after.head? = some '[')

instance (before : List Char) (c : Char) (after : List Char) :
    Decidable (IsActiveAt before c after) :=
  inferInstanceAs (Decidable (_ ∨ _ ∨ _))

/-- A reader of the escaped text sees the characters of the text, each of them escaped exactly if
it is active. -/
structure IsEscapeOf (text escaped : List Char) : Prop where
  readBack : unescape escaped = text
  introduced : ∀ before c after, text = before ++ c :: after →
    (signs escaped)[before.length]? = some ⟨c, decide (IsActiveAt before c after)⟩

section Reader

theorem signs_cons_of_ne {c : Char} (h : c ≠ '\\') (rest : List Char) :
    signs (c :: rest) = ⟨c, false⟩ :: signs rest := by
  rw [signs.eq_2]
  rintro _ _ rfl
  exact absurd rfl h

/-- Nothing of a markup is lost on its reader. -/
theorem flatMap_markup_signs (text : List Char) : (signs text).flatMap Sign.markup = text := by
  fun_induction signs text with
  | case1 c rest ih => exact congrArg (fun more => '\\' :: c :: more) ih
  | case2 c rest _ ih => exact congrArg (List.cons c) ih
  | case3 => rfl

theorem signs_inj {text other : List Char} (h : signs text = signs other) : text = other := by
  rw [← flatMap_markup_signs text, h, flatMap_markup_signs]

end Reader

section Escape

theorem isActive_iff {before after : List Char} {c : Char} :
    isActive before.getLast? c after.head? = true ↔ IsActiveAt before c after := by
  rw [isActive, IsActiveAt]
  by_cases hmark : c = '\x60' ∨ c = '*' ∨ c = '_' ∨ c = '\\'
  · simp [activeMarks, hmark]
  · have hc : c ∉ activeMarks := by simpa [activeMarks] using hmark
    rw [if_neg hmark, or_iff_right hc]
    by_cases hhash : c = '#'
    · simp [hhash]
    · by_cases himage : c = '!'
      · simp [himage]
      · simp [hhash, himage]

/-- The first character of an escaped text is seen as it is, and then the rest. -/
theorem signs_escapeAfter_cons (previous : Option Char) (c : Char) (rest : List Char) :
    signs (escapeAfter previous (c :: rest)) =
      ⟨c, isActive previous c rest.head?⟩ :: signs (escapeAfter (some c) rest) := by
  rw [escapeAfter]
  cases hactive : isActive previous c rest.head? with
  | true => rfl
  | false =>
      have hc : c ≠ '\\' := fun heq => (inert_of_isActive hactive).1 (by simp [activeMarks, heq])
      exact signs_cons_of_ne hc _

theorem unescape_escapeAfter (previous : Option Char) (text : List Char) :
    unescape (escapeAfter previous text) = text := by
  induction text generalizing previous with
  | nil => rfl
  | cons c text ih =>
      rw [unescape, signs_escapeAfter_cons, List.map_cons]
      exact congrArg (List.cons c) (ih (some c))

theorem getElem?_signs_escapeAfter (previous : Option Char) (before : List Char) (c : Char)
    (after : List Char) :
    (signs (escapeAfter previous (before ++ c :: after)))[before.length]? =
      some ⟨c, isActive (before.getLast?.or previous) c after.head?⟩ := by
  induction before generalizing previous with
  | nil =>
      rw [List.nil_append, signs_escapeAfter_cons]
      rfl
  | cons d before ih =>
      have hlast : (d :: before).getLast?.or previous = before.getLast?.or (some d) := by
        rw [List.getLast?_cons]
        cases before.getLast? <;> rfl
      rw [List.cons_append, signs_escapeAfter_cons, List.length_cons, List.getElem?_cons_succ, ih,
        hlast]

theorem escape_isEscapeOf (text : List Char) : IsEscapeOf text (escape text) where
  readBack := unescape_escapeAfter none text
  introduced before c after heq := by
    have hactive : isActive before.getLast? c after.head? =
        decide (IsActiveAt before c after) := by
      rw [Bool.eq_iff_iff, isActive_iff, decide_eq_true_iff]
    rw [heq, escape, getElem?_signs_escapeAfter, Option.or_none, hactive]

/-- Whatever is seen like an escaped text is seen as the same signs. -/
theorem IsEscapeOf.signs_eq {text escaped other : List Char} (h : IsEscapeOf text escaped)
    (ho : IsEscapeOf text other) : signs escaped = signs other := by
  have hlength : ∀ {markup : List Char}, IsEscapeOf text markup →
      (signs markup).length = text.length := by
    intro markup hmarkup
    have hread := congrArg List.length hmarkup.readBack
    rwa [unescape, List.length_map] at hread
  apply List.ext_getElem?
  intro place
  by_cases hplace : place < text.length
  · -- Each place of the text splits it at the character that stands there.
    have hsplit : text = text.take place ++ text[place] :: text.drop (place + 1) := by
      rw [← List.drop_eq_getElem_cons hplace, List.take_append_drop]
    have hfound := h.introduced _ _ _ hsplit
    rw [← ho.introduced _ _ _ hsplit, List.length_take_of_le (Nat.le_of_lt hplace)] at hfound
    exact hfound
  · have hend := Nat.le_of_not_lt hplace
    rw [List.getElem?_eq_none (hlength h ▸ hend), List.getElem?_eq_none (hlength ho ▸ hend)]

end Escape

/-- A markup is the escaped text exactly when a reader sees in it the characters of the text, where
marks, hash signs after a newline and exclamation marks before a bracket are introduced by a
backslash of their own, and nothing else is. -/
theorem isEscapeOf_iff (text escaped : List Char) :
    IsEscapeOf text escaped ↔ escaped = escape text := by
  constructor
  · exact fun h => signs_inj (h.signs_eq (escape_isEscapeOf text))
  · rintro rfl
    exact escape_isEscapeOf text

example : escape "\\!\\![\n##".toList = "\\\\!\\\\\\![\n\\##".toList := by decide

end OutlineWiki.Markup
