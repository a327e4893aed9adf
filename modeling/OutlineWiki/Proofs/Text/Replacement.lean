import OutlineWiki.Proofs.Text.Rewriting

/-!
Replacing a pattern around other characters.

No place of a pattern goes across a character that the pattern does not hold, so a text may be
replaced piece by piece. A replacement that is longer than its pattern makes a text longer,
unless the pattern does not stand in it.
-/

namespace OutlineWiki.Text

variable {pattern replacement text : List Char}

theorem dropStart?_eq_none_iff : dropStart? pattern text = none ↔ ¬ pattern <+: text := by
  constructor
  · rintro hdrop ⟨rest, rfl⟩
    rw [dropStart?_append] at hdrop
    cases hdrop
  · intro h
    cases hdrop : dropStart? pattern text with
    | none => rfl
    | some rest => exact absurd ⟨rest, (eq_append_of_dropStart? hdrop).symm⟩ h

theorem dropStart?_append_cons {c : Char} (hc : c ∉ pattern) (before after : List Char) :
    dropStart? pattern (before ++ c :: after) =
      (dropStart? pattern before).map (· ++ c :: after) := by
  induction pattern generalizing before with
  | nil => rfl
  | cons p pattern ih =>
      obtain ⟨hp, hrest⟩ := not_or.mp (mt List.mem_cons.mpr hc)
      cases before with
      | nil => exact dropStart?_cons_of_notMem (List.cons_ne_nil p pattern) hc after
      | cons d before =>
          rw [List.cons_append, dropStart?, dropStart?]
          split
          · exact ih hrest before
          · rfl

section Pattern

variable (hne : pattern ≠ [])
include hne

/-- A text is replaced by way of its first character, or of a pattern that it starts with. -/
theorem replace_induction {P : List Char → Prop} (nil : P [])
    (cons : ∀ c text, dropStart? pattern (c :: text) = none → P text → P (c :: text))
    (found : ∀ rest, P rest → P (pattern ++ rest)) (text : List Char) : P text := by
  induction hlength : text.length using Nat.strongRecOn generalizing text with
  | ind n ih =>
      cases text with
      | nil => exact nil
      | cons c text =>
          cases hdrop : dropStart? pattern (c :: text) with
          | none => exact cons c text hdrop (ih text.length (hlength ▸ Nat.lt_succ_self _) text rfl)
          | some rest =>
              have heq := eq_append_of_dropStart? hdrop
              have hshorter : rest.length < n := by
                have hlengths := congrArg List.length heq
                have hpos := List.length_pos_iff.mpr hne
                rw [List.length_append] at hlengths
                omega
              exact heq ▸ found rest (ih _ hshorter rest rfl)

theorem replaceAll_pattern_append (rest : List Char) :
    replaceAll pattern replacement (pattern ++ rest) =
      replacement ++ replaceAll pattern replacement rest :=
  replaceAll_of_dropStart? hne (dropStart?_append pattern rest)

/-- Texts around a character that the pattern does not hold are replaced on their own. -/
theorem replaceAll_append_cons {c : Char} (hc : c ∉ pattern) (before after : List Char) :
    replaceAll pattern replacement (before ++ c :: after) =
      replaceAll pattern replacement before ++ c :: replaceAll pattern replacement after := by
  induction before using replace_induction hne with
  | nil => exact replaceAll_cons (dropStart?_cons_of_notMem hne hc after)
  | cons d before hnone ih =>
      have hnone' : dropStart? pattern (d :: (before ++ c :: after)) = none := by
        rw [← List.cons_append, dropStart?_append_cons hc, hnone]
        rfl
      rw [List.cons_append, replaceAll_cons hnone', replaceAll_cons hnone, ih, List.cons_append]
  | found rest ih =>
      rw [List.append_assoc, replaceAll_pattern_append hne, replaceAll_pattern_append hne, ih,
        List.append_assoc]

theorem filter_replaceAll {test : Char → Bool} (hp : ∀ c ∈ pattern, test c = false)
    (hr : ∀ c ∈ replacement, test c = false) (text : List Char) :
    (replaceAll pattern replacement text).filter test = text.filter test := by
  have hnone : ∀ part : List Char, (∀ c ∈ part, test c = false) → part.filter test = [] :=
    fun part h => List.filter_eq_nil_iff.mpr fun c hc => by simp [h c hc]
  induction text using replace_induction hne with
  | nil => rfl
  | cons c text hdrop ih => rw [replaceAll_cons hdrop, List.filter_cons, List.filter_cons, ih]
  | found rest ih =>
      rw [replaceAll_pattern_append hne, List.filter_append, List.filter_append, ih, hnone _ hp,
        hnone _ hr]

theorem length_le_length_replaceAll (hlt : pattern.length < replacement.length)
    (text : List Char) : text.length ≤ (replaceAll pattern replacement text).length := by
  induction text using replace_induction hne with
  | nil => exact Nat.le_refl _
  | cons c text hdrop ih =>
      rw [replaceAll_cons hdrop]
      exact Nat.succ_le_succ ih
  | found rest ih =>
      rw [replaceAll_pattern_append hne, List.length_append, List.length_append]
      omega

/-- A text is not made longer only if the pattern does not stand in it. -/
theorem not_infix_of_length_replaceAll (hlt : pattern.length < replacement.length)
    (h : (replaceAll pattern replacement text).length ≤ text.length) : ¬ pattern <:+: text := by
  induction text using replace_induction hne with
  | nil => exact fun hin => hne (List.infix_nil.mp hin)
  | cons c text hdrop ih =>
      rw [replaceAll_cons hdrop] at h
      intro hin
      obtain hstart | hin := List.infix_cons_iff.mp hin
      · exact dropStart?_eq_none_iff.mp hdrop hstart
      · exact ih (Nat.le_of_succ_le_succ h) hin
  | found rest ih =>
      have hrest := length_le_length_replaceAll hne hlt rest
      rw [replaceAll_pattern_append hne, List.length_append, List.length_append] at h
      omega

omit hne in
theorem replaceAll_eq_self (h : ¬ pattern <:+: text) :
    replaceAll pattern replacement text = text := by
  induction text with
  | nil => rfl
  | cons c text ih =>
      have hdrop : dropStart? pattern (c :: text) = none :=
        dropStart?_eq_none_iff.mpr fun hstart => h hstart.isInfix
      rw [replaceAll_cons hdrop, ih fun hin => h (List.infix_cons hin)]

omit hne in
theorem replaceAll_of_notMem {c : Char} (hc : c ∈ pattern) (h : c ∉ text) :
    replaceAll pattern replacement text = text :=
  replaceAll_eq_self fun hin => h (hin.subset hc)

end Pattern

end OutlineWiki.Text
