import Mathlib.Data.List.Induction
import OutlineWiki.Proofs.Text.LineStart
import OutlineWiki.Text.Search

/-!
Changes of a text that leave the starts of its lines alone.

Spaces are dropped from the end of a line and patterns are replaced without regard to hash
signs and backslashes, so the outcome is the same whether a text is guarded before or after.
-/

namespace OutlineWiki.Text

section Trailing

variable {test : Char → Bool} (h : test '#' = false)
include h

theorem dropTrailing_guardHashes (atStart : Bool) (text : List Char) :
    dropTrailing test (guardHashes atStart text) =
      guardHashes atStart (dropTrailing test text) := by
  induction text using List.reverseRecOn with
  | nil => rfl
  | append_singleton text c ih =>
      rw [guardHashes_append, dropTrailing_append_singleton]
      by_cases hc : c = '#'
      · subst hc
        have hkeep : ∀ before, dropTrailing test (before ++ ['#']) = before ++ ['#'] :=
          fun before => by rw [dropTrailing_append_singleton, h, if_neg Bool.false_ne_true]
        rw [h, if_neg Bool.false_ne_true, guardHashes_append]
        cases startsLineAfter atStart text with
        | false => exact hkeep (guardHashes atStart text)
        | true => simpa [guardHashes] using hkeep (guardHashes atStart text ++ ['\\'])
      · rw [guardHashes_cons_of_ne hc, guardHashes, dropTrailing_append_singleton]
        split
        · exact ih
        · rw [guardHashes_append, guardHashes_cons_of_ne hc, guardHashes]

theorem head?_dropTrailing_eq_hash (text : List Char) :
    (dropTrailing test text).head? = some '#' ↔ text.head? = some '#' := by
  induction text using List.reverseRecOn with
  | nil => rfl
  | append_singleton text c ih =>
      rw [dropTrailing_append_singleton]
      split
      · next hc =>
          have hne : c ≠ '#' := fun heq => by simp [heq, h] at hc
          rw [ih]
          cases text <;> simp [hne]
      · rfl

end Trailing

section Replacement

variable {pattern replacement : List Char}

theorem replaceFrom_eq_drop (skip : Nat) (text : List Char) :
    replaceFrom pattern replacement skip text =
      replaceAll pattern replacement (text.drop skip) := by
  induction text generalizing skip with
  | nil => cases skip <;> rfl
  | cons c text ih =>
      cases skip with
      | zero => rfl
      | succ skip => exact ih skip

theorem replaceAll_of_dropStart? (hne : pattern ≠ []) {text rest : List Char}
    (h : dropStart? pattern text = some rest) :
    replaceAll pattern replacement text =
      replacement ++ replaceAll pattern replacement rest := by
  obtain ⟨p, others, rfl⟩ := List.exists_cons_of_ne_nil hne
  cases text with
  | nil => cases h
  | cons c text =>
      have heq : c :: text = p :: (others ++ rest) := eq_append_of_dropStart? h
      rw [replaceAll, replaceFrom, h, replaceFrom_eq_drop, (List.cons.inj heq).2]
      simp

theorem replaceAll_cons {c : Char} {text : List Char}
    (h : dropStart? pattern (c :: text) = none) :
    replaceAll pattern replacement (c :: text) = c :: replaceAll pattern replacement text := by
  rw [replaceAll, replaceFrom, h]
  rfl

theorem dropStart?_cons_of_notMem (hne : pattern ≠ []) {c : Char} (h : c ∉ pattern)
    (text : List Char) : dropStart? pattern (c :: text) = none := by
  obtain ⟨p, others, rfl⟩ := List.exists_cons_of_ne_nil hne
  obtain ⟨hp, _⟩ := not_or.mp (mt List.mem_cons.mpr h)
  rw [dropStart?, if_neg (by simpa using Ne.symm hp)]

variable (hback : '\\' ∉ pattern) (hhash : '#' ∉ pattern)
include hback hhash

theorem dropStart?_guardHashes (atStart : Bool) (text : List Char) :
    dropStart? pattern (guardHashes atStart text) =
      (dropStart? pattern text).map (guardHashes (startsLineAfter atStart pattern)) := by
  induction pattern generalizing atStart text with
  | nil => rfl
  | cons p pattern ih =>
      cases text with
      | nil => rfl
      | cons c text =>
          by_cases hc : c = '#'
          · subst hc
            rw [dropStart?_cons_of_notMem (List.cons_ne_nil p pattern) hhash]
            cases atStart with
            | false => exact dropStart?_cons_of_notMem (List.cons_ne_nil p pattern) hhash _
            | true => exact dropStart?_cons_of_notMem (List.cons_ne_nil p pattern) hback _
          · rw [guardHashes_cons_of_ne hc, startsLineAfter_cons, dropStart?, dropStart?]
            split
            · next hp =>
                rw [eq_of_beq hp]
                exact ih (fun h => hback (List.mem_cons_of_mem p h))
                  (fun h => hhash (List.mem_cons_of_mem p h)) (c == '\n') text
            · rfl

/-- Where a pattern ends like what replaces it, guards may be put before or after. -/
theorem replaceAll_guardHashes (hne : pattern ≠ []) (hplain : '#' ∉ replacement)
    (hend : ∀ start, startsLineAfter start replacement = startsLineAfter start pattern)
    (atStart : Bool) (text : List Char) :
    replaceAll pattern replacement (guardHashes atStart text) =
      guardHashes atStart (replaceAll pattern replacement text) := by
  -- A match takes several characters at once, so the induction is on the length.
  induction hlength : text.length using Nat.strongRecOn generalizing atStart text with
  | ind n ih =>
      have hguard := dropStart?_guardHashes hback hhash atStart text
      cases hdrop : dropStart? pattern text with
      | some rest =>
          have hshorter : rest.length < n := by
            have hlength' := congrArg List.length (eq_append_of_dropStart? hdrop)
            have hpos := List.length_pos_iff.mpr hne
            rw [List.length_append] at hlength'
            omega
          rw [hdrop] at hguard
          rw [replaceAll_of_dropStart? hne hguard, replaceAll_of_dropStart? hne hdrop,
            guardHashes_append, guardHashes_of_notMem hplain, hend, ih _ hshorter _ _ rfl]
      | none =>
          rw [hdrop] at hguard
          cases text with
          | nil => rfl
          | cons c text =>
              have hshorter : text.length < n := hlength ▸ Nat.lt_succ_self text.length
              rw [replaceAll_cons hdrop]
              by_cases hc : c = '#'
              · subst hc
                have hrest := ih _ hshorter false text rfl
                have hhashed : ∀ more, replaceAll pattern replacement ('#' :: more) =
                    '#' :: replaceAll pattern replacement more :=
                  fun more => replaceAll_cons (dropStart?_cons_of_notMem hne hhash more)
                cases atStart with
                | false => exact (hhashed _).trans (congrArg _ hrest)
                | true =>
                    have hguard : ∀ more, replaceAll pattern replacement ('\\' :: more) =
                        '\\' :: replaceAll pattern replacement more :=
                      fun more => replaceAll_cons (dropStart?_cons_of_notMem hne hback more)
                    exact (hguard _).trans (congrArg _ ((hhashed _).trans (congrArg _ hrest)))
              · rw [guardHashes_cons_of_ne hc] at hguard ⊢
                rw [replaceAll_cons hguard, ih _ hshorter _ text rfl, guardHashes_cons_of_ne hc]

omit hback hhash in
theorem head?_replaceAll_eq_some_iff {c : Char} (hc : c ∉ pattern) (hne : pattern ≠ [])
    (hreplacement : replacement ≠ []) (hplain : c ∉ replacement) (text : List Char) :
    (replaceAll pattern replacement text).head? = some c ↔ text.head? = some c := by
  cases hdrop : dropStart? pattern text with
  | some rest =>
      obtain ⟨p, others, rfl⟩ := List.exists_cons_of_ne_nil hne
      obtain ⟨r, more, rfl⟩ := List.exists_cons_of_ne_nil hreplacement
      rw [replaceAll_of_dropStart? hne hdrop, eq_append_of_dropStart? hdrop]
      have hp : p ≠ c := fun h => hc (h ▸ List.mem_cons_self)
      have hr : r ≠ c := fun h => hplain (h ▸ List.mem_cons_self)
      simp [hp, hr]
  | none =>
      cases text with
      | nil => rfl
      | cons d text => rw [replaceAll_cons hdrop]; rfl

end Replacement

end OutlineWiki.Text
