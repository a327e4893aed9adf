import Mathlib.Data.List.TakeWhile
import OutlineWiki.Text.Blank

/-!
What is removed from the end of a text.

A text is what is left of it and a run of characters of the kind that is removed. What
stands before any other character stays.
-/

namespace OutlineWiki.Text

variable {test : Char → Bool}

theorem dropTrailing_append (test : Char → Bool) (before after : List Char) :
    dropTrailing test (before ++ after) =
      if (dropTrailing test after).isEmpty then dropTrailing test before
      else before ++ dropTrailing test after := by
  simp only [dropTrailing, List.reverse_append, List.dropWhile_append, List.isEmpty_reverse]
  split <;> simp

theorem dropTrailing_append_cons {c : Char} (h : test c = false) (before after : List Char) :
    dropTrailing test (before ++ c :: after) = before ++ c :: dropTrailing test after := by
  have hcons : dropTrailing test (c :: after) = c :: dropTrailing test after := by
    have hone : dropTrailing test [c] = [c] := by simp [dropTrailing, h]
    have hsplit := dropTrailing_append test [c] after
    rw [hone] at hsplit
    split at hsplit
    · next hempty => rw [List.isEmpty_iff.mp hempty]; exact hsplit
    · exact hsplit
  rw [dropTrailing_append, hcons]
  rfl

/-- A text is what is left of it and a run of what is removed. -/
theorem exists_trailing (test : Char → Bool) (text : List Char) :
    ∃ run, text = dropTrailing test text ++ run ∧ ∀ c ∈ run, test c = true := by
  refine ⟨(text.reverse.takeWhile test).reverse, ?_, fun c hc => ?_⟩
  · rw [dropTrailing, ← List.reverse_append, List.takeWhile_append_dropWhile,
      List.reverse_reverse]
  · exact List.mem_takeWhile_imp (List.mem_reverse.mp hc)

theorem of_mem_getLast?_dropTrailing (text : List Char) :
    ∀ c ∈ (dropTrailing test text).getLast?, test c = false := by
  intro c hc
  rw [dropTrailing, List.getLast?_reverse] at hc
  have hhead := List.head?_dropWhile_not test text.reverse
  rw [hc] at hhead
  exact hhead

theorem dropTrailing_eq_self {text : List Char} (h : ∀ c ∈ text.getLast?, test c = false) :
    dropTrailing test text = text := by
  obtain rfl | ⟨init, c, rfl⟩ := text.eq_nil_or_concat
  · rfl
  · rw [List.concat_eq_append] at h ⊢
    rw [dropTrailing_append_singleton, h c (by simp), if_neg Bool.false_ne_true]

theorem length_dropTrailing_le (test : Char → Bool) (text : List Char) :
    (dropTrailing test text).length ≤ text.length := by
  obtain ⟨run, hrun, _⟩ := exists_trailing test text
  have hlength := congrArg List.length hrun
  rw [List.length_append] at hlength
  omega

end OutlineWiki.Text
