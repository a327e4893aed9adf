import OutlineWiki.Text.Lines

/-!
Texts split at a character and joined with it.

A text is one piece without the character, or such a piece with the character and more text after
it. Pieces without the character that are joined with it are found again when the text is split.
-/

namespace OutlineWiki.Text

variable {mark : Char} {part text piece : List Char} {pieces : List (List Char)}

/-- What is put before a text comes into its first piece, if it lacks the character. -/
theorem splitOn_append_of_notMem (h : mark ∉ part) (hsplit : splitOn mark text = piece :: pieces) :
    splitOn mark (part ++ text) = (part ++ piece) :: pieces := by
  induction part with
  | nil => exact hsplit
  | cons c part ih =>
      obtain ⟨hc, hpart⟩ := not_or.mp (mt List.mem_cons.mpr h)
      have hrest := ih hpart
      simp only [splitOn, List.cons_append, List.foldr_cons] at hrest ⊢
      rw [hrest, if_neg (by simpa using Ne.symm hc)]

theorem splitOn_of_notMem (h : mark ∉ part) : splitOn mark part = [part] := by
  have hpart : splitOn mark (part ++ []) = [part ++ []] := splitOn_append_of_notMem h rfl
  rwa [List.append_nil] at hpart

theorem splitOn_cons_self (mark : Char) (text : List Char) :
    splitOn mark (mark :: text) = [] :: splitOn mark text := by
  rw [splitOn, List.foldr_cons, beq_self_eq_true, if_pos rfl]
  rfl

theorem splitOn_append_mark (h : mark ∉ part) (rest : List Char) :
    splitOn mark (part ++ mark :: rest) = part :: splitOn mark rest := by
  rw [splitOn_append_of_notMem h (splitOn_cons_self mark rest), List.append_nil]

/-- A text is one piece, or a piece with the character and more text after it. -/
theorem piece_induction (mark : Char) {motive : List Char → Prop}
    (last : ∀ piece, mark ∉ piece → motive piece)
    (piece : ∀ piece rest, mark ∉ piece → motive rest → motive (piece ++ mark :: rest))
    (text : List Char) : motive text := by
  induction hlength : text.length using Nat.strongRecOn generalizing text with
  | ind n ih =>
      by_cases hmem : mark ∈ text
      · obtain ⟨before, after, rfl, hbefore⟩ := List.eq_append_cons_of_mem hmem
        apply piece before after hbefore
        apply ih after.length _ after rfl
        rw [← hlength, List.length_append, List.length_cons]
        omega
      · exact last text hmem

theorem notMem_of_mem_splitOn (h : piece ∈ splitOn mark text) : mark ∉ piece := by
  induction text using piece_induction mark with
  | last part hpart =>
      rw [splitOn_of_notMem hpart, List.mem_singleton] at h
      rwa [h]
  | piece part rest hpart ih =>
      rw [splitOn_append_mark hpart, List.mem_cons] at h
      obtain rfl | h := h
      · exact hpart
      · exact ih h

theorem join_cons_cons (mark : Char) (piece next : List Char) (pieces : List (List Char)) :
    join [mark] (piece :: next :: pieces) = piece ++ mark :: join [mark] (next :: pieces) := by
  rw [join, List.intercalate_cons_cons, List.append_assoc]
  rfl

theorem splitOn_join (hne : pieces ≠ []) (h : ∀ piece ∈ pieces, mark ∉ piece) :
    splitOn mark (join [mark] pieces) = pieces := by
  induction pieces with
  | nil => exact absurd rfl hne
  | cons piece pieces ih =>
      obtain ⟨hpiece, hrest⟩ := List.forall_mem_cons.mp h
      cases pieces with
      | nil =>
          rw [join, List.intercalate_singleton]
          exact splitOn_of_notMem hpiece
      | cons next pieces =>
          rw [join_cons_cons, splitOn_append_mark hpiece, ih (List.cons_ne_nil _ _) hrest]

end OutlineWiki.Text
