import Mathlib.Data.List.DropRight
import Mathlib.Data.List.Forall2
import OutlineWiki.Proofs.Text.LineStart
import OutlineWiki.Proofs.Text.Replacement
import OutlineWiki.Proofs.Text.Words

/-!
Blanks at the ends of lines.

Two texts that only differ in their words, each word standing for another one, have the same blanks
in the same order. So their lines end in the same blanks.
-/

namespace OutlineWiki.Text

/-- Two texts with the same blanks, and with a word in the one where the other has one. -/
inductive SameBlanks : List Char → List Char → Prop where
  | nil : SameBlanks [] []
  | blank {c : Char} {text other : List Char} (h : isBlank c = true)
      (rest : SameBlanks text other) : SameBlanks (c :: text) (c :: other)
  | word {word otherWord text other : List Char} (h : IsWord word) (ho : IsWord otherWord)
      (rest : SameBlanks text other) : SameBlanks (word ++ text) (otherWord ++ other)

/-- The blanks that each line of a text ends in. -/
def lineEnds (text : List Char) : List (List Char) :=
  (splitOn '\n' text).map (List.rtakeWhile isBlank)

variable {text other word line : List Char} {c : Char}

theorem isWord_singleton (h : isBlank c = false) : IsWord [c] :=
  ⟨List.cons_ne_nil c [], by simpa using h⟩

theorem SameBlanks.cons (c : Char) (h : SameBlanks text other) :
    SameBlanks (c :: text) (c :: other) := by
  cases hc : isBlank c with
  | true => exact .blank hc h
  | false => exact .word (isWord_singleton hc) (isWord_singleton hc) h

theorem sameBlanks_replaceAll {pattern replacement : List Char} (hp : IsWord pattern)
    (hr : IsWord replacement) (text : List Char) :
    SameBlanks text (replaceAll pattern replacement text) := by
  induction text using replace_induction hp.ne_nil with
  | nil => exact .nil
  | cons c text hdrop ih =>
      rw [replaceAll_cons hdrop]
      exact ih.cons c
  | found rest ih =>
      rw [replaceAll_pattern_append hp.ne_nil]
      exact .word hp hr ih

section Ends

theorem IsWord.rtakeWhile_append (h : IsWord word) (line : List Char) :
    (word ++ line).rtakeWhile isBlank = line.rtakeWhile isBlank := by
  have hword : word.reverse.takeWhile isBlank = [] := by
    obtain ⟨init, c, rfl⟩ := List.eq_nil_or_concat word |>.resolve_left h.ne_nil
    have hc := h.solid c (by simp)
    simp [hc]
  rw [List.rtakeWhile, List.rtakeWhile, List.reverse_append, List.takeWhile_append, hword,
    List.append_nil]
  split
  · next hall => rw [(List.takeWhile_prefix isBlank).eq_of_length hall]
  · rfl

theorem rtakeWhile_blank_cons (h : isBlank c = true) (line : List Char) :
    (c :: line).rtakeWhile isBlank =
      if isBlankLine line then c :: line.rtakeWhile isBlank else line.rtakeWhile isBlank := by
  have hone : [c].takeWhile isBlank = [c] := by simp [h]
  have hall : isBlankLine line = true ↔
      (line.reverse.takeWhile isBlank).length = line.reverse.length := by
    rw [isBlankLine, ← List.all_reverse, List.all_eq_true, ← List.takeWhile_eq_self_iff]
    exact ⟨congrArg List.length, (List.takeWhile_prefix isBlank).eq_of_length⟩
  rw [List.rtakeWhile, List.rtakeWhile, List.reverse_cons, List.takeWhile_append, hone]
  by_cases hblank : isBlankLine line = true
  · rw [if_pos (hall.mp hblank), if_pos hblank, List.reverse_append,
      (List.takeWhile_prefix isBlank).eq_of_length (hall.mp hblank)]
    rfl
  · rw [if_neg (mt hall.mpr hblank), if_neg hblank]

/-- Two lines that end in the same blanks, and are blank alike. -/
structure SameEnd (line other : List Char) : Prop where
  blank : isBlankLine line = isBlankLine other
  ends : line.rtakeWhile isBlank = other.rtakeWhile isBlank

theorem SameEnd.blank_cons (hc : isBlank c = true) (h : SameEnd line other) :
    SameEnd (c :: line) (c :: other) where
  blank := by
    rw [isBlankLine, isBlankLine, List.all_cons, List.all_cons]
    exact congrArg _ h.blank
  ends := by
    rw [rtakeWhile_blank_cons hc, rtakeWhile_blank_cons hc, h.blank, h.ends]

theorem IsWord.isBlankLine_append (h : IsWord word) (line : List Char) :
    isBlankLine (word ++ line) = false := by
  obtain ⟨c, word, rfl⟩ := List.exists_cons_of_ne_nil h.ne_nil
  have hc := h.solid c List.mem_cons_self
  simp [isBlankLine, hc]

theorem SameBlanks.isBlankLine_eq (h : SameBlanks text other) :
    isBlankLine text = isBlankLine other := by
  induction h with
  | nil => rfl
  | blank hc _ ih =>
      rw [isBlankLine, isBlankLine, List.all_cons, List.all_cons]
      exact congrArg _ ih
  | word hword hother _ _ => rw [hword.isBlankLine_append, hother.isBlankLine_append]

theorem SameEnd.word_append {otherWord : List Char} (hw : IsWord word) (ho : IsWord otherWord)
    (h : SameEnd line other) : SameEnd (word ++ line) (otherWord ++ other) where
  blank := by rw [hw.isBlankLine_append, ho.isBlankLine_append]
  ends := by rw [hw.rtakeWhile_append, ho.rtakeWhile_append, h.ends]

end Ends

section Lines

/-- What is put before two texts comes on their first lines. -/
theorem forall₂_splitOn_append {relation : List Char → List Char → Prop} {mark : Char}
    {part otherPart : List Char} (hpart : mark ∉ part) (hother : mark ∉ otherPart)
    (hstep : ∀ line other, relation line other → relation (part ++ line) (otherPart ++ other))
    (h : List.Forall₂ relation (splitOn mark text) (splitOn mark other)) :
    List.Forall₂ relation (splitOn mark (part ++ text)) (splitOn mark (otherPart ++ other)) := by
  obtain ⟨piece, pieces, hsplit⟩ := List.exists_cons_of_ne_nil (splitOn_ne_nil mark text)
  obtain ⟨otherPiece, otherPieces, hotherSplit⟩ :=
    List.exists_cons_of_ne_nil (splitOn_ne_nil mark other)
  rw [hsplit, hotherSplit, List.forall₂_cons] at h
  rw [splitOn_append_of_notMem hpart hsplit, splitOn_append_of_notMem hother hotherSplit]
  exact .cons (hstep _ _ h.1) h.2

theorem SameBlanks.forall₂_sameEnd (h : SameBlanks text other) :
    List.Forall₂ SameEnd (splitOn '\n' text) (splitOn '\n' other) := by
  have hnewline : ∀ {word : List Char}, IsWord word → '\n' ∉ word := fun hword hmem => by
    cases hword.solid '\n' hmem
  induction h with
  | nil => exact .cons ⟨rfl, rfl⟩ .nil
  | @blank c text other hc _ ih =>
      by_cases heq : c = '\n'
      · subst heq
        exact .cons ⟨rfl, rfl⟩ ih
      · have hpart : '\n' ∉ [c] := by simpa using Ne.symm heq
        exact forall₂_splitOn_append hpart hpart (fun _ _ hend => hend.blank_cons hc) ih
  | word hword hother _ ih =>
      exact forall₂_splitOn_append (hnewline hword) (hnewline hother)
        (fun _ _ hend => hend.word_append hword hother) ih

theorem SameBlanks.lineEnds_eq (h : SameBlanks text other) : lineEnds text = lineEnds other := by
  have hends := h.forall₂_sameEnd.imp fun _ _ hend => hend.ends
  rw [lineEnds, lineEnds, ← List.forall₂_eq_eq_eq, List.forall₂_map_left_iff,
    List.forall₂_map_right_iff]
  exact hends

end Lines

end OutlineWiki.Text
