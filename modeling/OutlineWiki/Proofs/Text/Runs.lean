import Mathlib.Data.List.Basic
import OutlineWiki.Proofs.Text.Replacement

/-!
Replacing a pattern that repeats one character.

A pattern is found across the seam of two texts only if a character of it ends the first or starts
the second. So a longest run of the repeated character is replaced on its own: whole patterns are
taken from its start, and what is too short for another one is left. What stands in the outcome
without a character of the replacement stood in the text before.
-/

namespace OutlineWiki.Text

variable {pattern replacement text before after part : List Char}

section Seams

variable (hne : pattern ≠ [])
include hne

theorem replaceAll_append
    (h : (∀ c ∈ before.getLast?, c ∉ pattern) ∨ (∀ c ∈ after.head?, c ∉ pattern)) :
    replaceAll pattern replacement (before ++ after) =
      replaceAll pattern replacement before ++ replaceAll pattern replacement after := by
  obtain hbefore | hafter := h
  · obtain rfl | ⟨init, c, rfl⟩ := before.eq_nil_or_concat
    · rfl
    · have hc : c ∉ pattern := hbefore c (by simp)
      rw [List.concat_eq_append, List.append_assoc, List.singleton_append,
        replaceAll_append_cons hne hc, replaceAll_append_cons hne hc, List.append_assoc]
      rfl
  · cases after with
    | nil => exact (congrArg _ (List.append_nil before)).trans (List.append_nil _).symm
    | cons c rest =>
        have hc : c ∉ pattern := hafter c rfl
        rw [replaceAll_append_cons hne hc, replaceAll_cons (dropStart?_cons_of_notMem hne hc rest)]

theorem replaceAll_eq_nil_iff (hr : replacement ≠ []) :
    replaceAll pattern replacement text = [] ↔ text = [] := by
  induction text using replace_induction hne with
  | nil => exact Iff.rfl
  | cons c text hdrop ih => simp [replaceAll_cons hdrop]
  | found rest ih => simp [replaceAll_pattern_append hne, hr, hne]

variable (hr : replacement ≠ [])
include hr

/-- A character that does not end the replacement only ends the outcome if it ended the text. -/
theorem getLast?_of_replaceAll {c : Char} (hc : replacement.getLast? ≠ some c)
    (h : (replaceAll pattern replacement text).getLast? = some c) : text.getLast? = some c := by
  induction text using replace_induction hne with
  | nil => exact h
  | cons d text hdrop ih =>
      rw [replaceAll_cons hdrop, List.getLast?_cons] at h
      rw [List.getLast?_cons]
      cases hlast : (replaceAll pattern replacement text).getLast? with
      | none =>
          rw [List.getLast?_eq_none_iff, replaceAll_eq_nil_iff hne hr] at hlast
          rw [hlast]
          rwa [hlast] at h
      | some e =>
          rw [hlast] at h ih
          rw [ih h]
          rfl
  | found rest ih =>
      rw [replaceAll_pattern_append hne, List.getLast?_append] at h
      rw [List.getLast?_append]
      cases hlast : (replaceAll pattern replacement rest).getLast? with
      | none =>
          rw [hlast, Option.none_or] at h
          exact absurd h hc
      | some e =>
          rw [hlast] at h ih
          rw [ih h]
          rfl

theorem head?_of_replaceAll {c : Char} (hc : replacement.head? ≠ some c)
    (h : (replaceAll pattern replacement text).head? = some c) : text.head? = some c := by
  induction text using replace_induction hne with
  | nil => exact h
  | cons d text hdrop _ =>
      rw [replaceAll_cons hdrop] at h
      exact h
  | found rest _ =>
      rw [replaceAll_pattern_append hne, List.head?_append_of_ne_nil _ hr] at h
      exact absurd h hc

end Seams

section Parts

theorem head_notMem {first : Char} {others : List Char} (h : first ∉ part) :
    ∀ c ∈ (first :: others).head?, c ∉ part := by
  rintro c ⟨⟩
  exact h

/-- A part is not found across the end of a text that lacks its first character. -/
theorem infix_of_infix_append (hpart : part ≠ []) (h : ∀ c ∈ part.head?, c ∉ before)
    (hin : part <:+: before ++ after) : part <:+: after := by
  induction before with
  | nil => exact hin
  | cons c before ih =>
      obtain hstart | hin := List.infix_cons_iff.mp hin
      · obtain ⟨first, part, rfl⟩ := List.exists_cons_of_ne_nil hpart
        obtain rfl : first = c := (List.cons_prefix_cons.mp hstart).1
        exact absurd List.mem_cons_self (h first rfl)
      · exact ih (fun d hd hmem => h d hd (List.mem_cons_of_mem c hmem)) hin

variable (hne : pattern ≠ []) (hr : replacement ≠ [])
  (hfirst : ∀ c ∈ replacement.head?, c ∉ part)
include hne hr hfirst

/-- The outcome starts with a part that lacks the first character of the replacement only if the
text does so. -/
theorem prefix_of_prefix_replaceAll (h : part <+: replaceAll pattern replacement text) :
    part <+: text := by
  induction text using replace_induction hne generalizing part with
  | nil => exact h
  | cons c text hdrop ih =>
      cases part with
      | nil => exact List.nil_prefix
      | cons d part =>
          rw [replaceAll_cons hdrop, List.cons_prefix_cons] at h
          have hrest := ih (fun e he hmem => hfirst e he (List.mem_cons_of_mem d hmem)) h.2
          exact List.cons_prefix_cons.mpr ⟨h.1, hrest⟩
  | found rest _ =>
      cases part with
      | nil => exact List.nil_prefix
      | cons d part =>
          obtain ⟨first, others, rfl⟩ := List.exists_cons_of_ne_nil hr
          rw [replaceAll_pattern_append hne, List.cons_append, List.cons_prefix_cons] at h
          exact absurd (h.1 ▸ List.mem_cons_self) (hfirst first rfl)

variable (hpart : part ≠ []) (hapart : ∀ c ∈ part.head?, c ∉ replacement)
include hpart hapart

/-- A part that has nothing to do with the replacement stands in the outcome only if it stands in
the text. -/
theorem infix_of_infix_replaceAll (h : part <:+: replaceAll pattern replacement text) :
    part <:+: text := by
  induction text using replace_induction hne with
  | nil => exact h
  | cons c text hdrop ih =>
      rw [replaceAll_cons hdrop] at h
      obtain hstart | hin := List.infix_cons_iff.mp h
      · rw [← replaceAll_cons hdrop] at hstart
        exact (prefix_of_prefix_replaceAll hne hr hfirst hstart).isInfix
      · exact List.infix_cons (ih hin)
  | found rest ih =>
      rw [replaceAll_pattern_append hne] at h
      exact List.infix_append_of_infix_right (ih (infix_of_infix_append hpart hapart h))

end Parts

/-- No place of the pattern is left, and none comes to be. -/
theorem not_infix_replaceAll (hne : pattern ≠ []) (hr : replacement ≠ [])
    (hfirst : ∀ c ∈ replacement.head?, c ∉ pattern)
    (hapart : ∀ c ∈ pattern.head?, c ∉ replacement) (text : List Char) :
    ¬ pattern <:+: replaceAll pattern replacement text := by
  induction text using replace_induction hne with
  | nil => exact fun hin => hne (List.infix_nil.mp hin)
  | cons c text hdrop ih =>
      intro hin
      rw [replaceAll_cons hdrop] at hin
      obtain hstart | hin := List.infix_cons_iff.mp hin
      · rw [← replaceAll_cons hdrop] at hstart
        exact dropStart?_eq_none_iff.mp hdrop (prefix_of_prefix_replaceAll hne hr hfirst hstart)
      · exact ih hin
  | found rest ih =>
      intro hin
      rw [replaceAll_pattern_append hne] at hin
      exact ih (infix_of_infix_append hne hapart hin)

section Repeated

variable {c : Char} {size : Nat} (hsize : 0 < size)
include hsize

theorem replaceAll_replicate (count : Nat) :
    replaceAll (List.replicate size c) replacement (List.replicate count c) =
      (List.replicate (count / size) replacement).flatten ++
        List.replicate (count % size) c := by
  have hne : List.replicate size c ≠ [] := by simpa using Nat.ne_of_gt hsize
  induction count using Nat.strongRecOn with
  | ind count ih =>
      by_cases hlt : count < size
      · have hshort : ¬ List.replicate size c <:+: List.replicate count c := fun hin => by
          have hlength := hin.length_le
          rw [List.length_replicate, List.length_replicate] at hlength
          omega
        rw [replaceAll_eq_self hshort, Nat.div_eq_of_lt hlt, Nat.mod_eq_of_lt hlt]
        rfl
      · obtain ⟨more, rfl⟩ := Nat.exists_eq_add_of_le (Nat.le_of_not_lt hlt)
        rw [List.replicate_add, replaceAll_pattern_append hne, ih more (by omega),
          Nat.add_div_left more hsize, Nat.add_mod_left, List.replicate_succ, List.flatten_cons,
          List.append_assoc]

/-- Two texts are replaced on their own unless the repeated character stands on both sides of
their seam. -/
theorem replaceAll_replicate_append
    (h : before.getLast? ≠ some c ∨ after.head? ≠ some c) :
    replaceAll (List.replicate size c) replacement (before ++ after) =
      replaceAll (List.replicate size c) replacement before ++
        replaceAll (List.replicate size c) replacement after := by
  have hapart : ∀ {other : Option Char}, other ≠ some c →
      ∀ d ∈ other, d ∉ List.replicate size c := by
    rintro other hother d rfl hd
    exact hother (congrArg some (List.eq_of_mem_replicate hd))
  exact replaceAll_append (by simpa using Nat.ne_of_gt hsize) (h.imp hapart hapart)

end Repeated

end OutlineWiki.Text
