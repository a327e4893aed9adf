import OutlineWiki.Markup.ListItem
import OutlineWiki.Proofs.Text.BlockEnds
import OutlineWiki.Proofs.Text.LineStart

/-!
Lines that are shown.

What a list item shows of a text are the lines that are not blank. The lines of texts that end
in a newline, one after another, are those of the texts, and neither the blank lines after a
block nor the single newline at its end change what is shown of it.
-/

namespace OutlineWiki
namespace Text

variable {line text : List Char}

/-- The text ends in a character that is not blank. -/
def EndsShown (text : List Char) : Prop :=
  ∃ body last, text = body ++ [last] ∧ isBlank last = false

theorem EndsShown.append_left (h : EndsShown text) (before : List Char) :
    EndsShown (before ++ text) := by
  obtain ⟨body, last, rfl, hlast⟩ := h
  exact ⟨before ++ body, last, (List.append_assoc _ _ _).symm, hlast⟩

theorem trimEnd_eq_nil_iff : trimEnd line = [] ↔ isBlankLine line = true := by
  simp [trimEnd, dropTrailing, List.dropWhile_eq_nil_iff, isBlankLine]

/-- What is left of a line that is not blank ends in what is not blank. -/
theorem endsShown_trimEnd (h : isBlankLine line = false) : EndsShown (trimEnd line) := by
  cases hlast : (trimEnd line).getLast? with
  | none =>
      rw [trimEnd_eq_nil_iff.mp (List.getLast?_eq_none_iff.mp hlast)] at h
      cases h
  | some last =>
      obtain ⟨body, hbody⟩ := List.getLast?_eq_some_iff.mp hlast
      refine ⟨body, last, hbody, ?_⟩
      have hkept := List.head?_dropWhile_not isBlank line.reverse
      rw [← List.reverse_reverse (line.reverse.dropWhile isBlank), ← dropTrailing, ← trimEnd,
        List.head?_reverse, hlast] at hkept
      exact hkept

theorem endsShown_trim (h : isBlankLine line = false) : EndsShown (trim line) := by
  refine endsShown_trimEnd ?_
  have hkept := List.head?_dropWhile_not isBlank line
  rw [trimStart]
  cases hrest : line.dropWhile isBlank with
  | nil =>
      rw [isBlankLine, List.all_eq_true.mpr (List.dropWhile_eq_nil_iff.mp hrest)] at h
      cases h
  | cons c rest =>
      rw [hrest] at hkept
      rw [isBlankLine, List.all_cons, show isBlank c = false from hkept, Bool.false_and]

theorem trim_eq_nil_iff {line : List Char} : trim line = [] ↔ isBlankLine line = true := by
  constructor
  · intro h
    refine Bool.of_not_eq_false fun hshown => ?_
    obtain ⟨body, last, hends, _⟩ := endsShown_trim hshown
    exact List.append_ne_nil_of_right_ne_nil body (List.cons_ne_nil last []) (hends ▸ h)
  · intro h
    rw [trim, trimStart, List.dropWhile_eq_nil_iff.mpr (List.all_eq_true.mp h)]
    rfl

theorem EndsShown.trimEnd_append (h : EndsShown text) {run : List Char}
    (hrun : isBlankLine run = true) : trimEnd (text ++ run) = text := by
  obtain ⟨body, last, rfl, hlast⟩ := h
  have hcut := dropTrailing_append_cons hlast body run
  rwa [← trimEnd, ← trimEnd, trimEnd_eq_nil_iff.mpr hrun, List.append_cons] at hcut

/-- Trimming the start of a line as well leaves an end of the line. -/
theorem trim_suffix_trimEnd (h : isBlankLine line = false) : trim line <:+ trimEnd line := by
  obtain ⟨blanks, hline⟩ : trimStart line <:+ line := List.dropWhile_suffix isBlank
  obtain ⟨run, hrun, hblank⟩ := exists_trailing isBlank (trimStart line)
  have hends : EndsShown (blanks ++ trim line) := (endsShown_trim h).append_left blanks
  have hparts : blanks ++ trim line ++ run = line := by
    rw [List.append_assoc, trim, trimEnd, ← hrun, hline]
  exact ⟨blanks, by rw [← hends.trimEnd_append (List.all_eq_true.mpr hblank), hparts]⟩

theorem EndsShown.isBlankLine_eq (h : EndsShown text) : isBlankLine text = false := by
  obtain ⟨body, last, rfl, hlast⟩ := h
  rw [isBlankLine, List.all_append, List.all_cons, hlast, Bool.false_and, Bool.and_false]

theorem EndsShown.dropReturn_eq (h : EndsShown text) : dropReturn text = text := by
  obtain ⟨body, last, rfl, hlast⟩ := h
  rw [dropReturn, List.getLast?_concat, if_neg]
  intro heq
  cases heq
  cases hlast

theorem EndsShown.startsLineAfter_eq (h : EndsShown text) (atStart : Bool) :
    startsLineAfter atStart text = false := by
  obtain ⟨body, last, rfl, hlast⟩ := h
  rw [startsLineAfter, List.getLast?_concat]
  refine beq_false_of_ne fun heq => ?_
  rw [heq] at hlast
  cases hlast

section Lines

/-- The text of lines that each end in a newline. -/
def unlines (rows : List (List Char)) : List Char :=
  rows.flatMap (· ++ ['\n'])

theorem unlines_append (rows more : List (List Char)) :
    unlines (rows ++ more) = unlines rows ++ unlines more :=
  List.flatMap_append

theorem startsLineAfter_unlines (rows : List (List Char)) :
    startsLineAfter true (unlines rows) = true := by
  induction rows with
  | nil => rfl
  | cons row rows ih =>
      rw [unlines, List.flatMap_cons, startsLineAfter_append, startsLineAfter_append]
      exact ih

theorem dropReturn_subset (line : List Char) : dropReturn line ⊆ line := by
  rw [dropReturn]
  split
  · exact (List.dropLast_sublist line).subset
  · exact List.Subset.refl line

/-- What follows the newline that a text ends in is on lines of its own. -/
theorem lines_append (h : startsLineAfter true text = true) (more : List Char) :
    lines (text ++ more) = lines text ++ lines more := by
  induction text using line_induction with
  | last line hline =>
      rw [startsLineAfter_line hline, Bool.true_and] at h
      rw [List.isEmpty_iff.mp h]
      rfl
  | line line rest hline ih =>
      rw [startsLineAfter_append, startsLineAfter_cons] at h
      rw [List.append_assoc, List.cons_append, lines_line_append hline, lines_line_append hline,
        ih h, List.cons_append]

theorem subset_of_mem_lines (h : line ∈ lines text) : line ⊆ text := by
  induction text using line_induction with
  | last last hlast =>
      rw [lines_line hlast] at h
      split at h
      · cases h
      · exact List.mem_singleton.mp h ▸ List.Subset.refl line
  | line first rest hfirst ih =>
      rw [lines_line_append hfirst] at h
      obtain rfl | hrest := List.mem_cons.mp h
      · exact List.Subset.trans (dropReturn_subset first) (List.subset_append_left _ _)
      · exact List.Subset.trans (ih hrest)
          (List.Subset.trans (List.subset_cons_self _ _) (List.subset_append_right _ _))

theorem newline_notMem_dropReturn (h : '\n' ∉ line) : '\n' ∉ dropReturn line :=
  fun hmem => h (dropReturn_subset line hmem)

theorem newline_notMem_of_mem_lines (h : line ∈ lines text) : '\n' ∉ line := by
  induction text using line_induction with
  | last last hlast =>
      rw [lines_line hlast] at h
      split at h
      · cases h
      · exact List.mem_singleton.mp h ▸ hlast
  | line first rest hfirst ih =>
      rw [lines_line_append hfirst] at h
      obtain rfl | hrest := List.mem_cons.mp h
      · exact newline_notMem_dropReturn hfirst
      · exact ih hrest

theorem newline_notMem_trimEnd (h : '\n' ∉ line) : '\n' ∉ trimEnd line := by
  obtain ⟨run, hrun, _⟩ := exists_trailing isBlank line
  intro hmem
  exact h (hrun ▸ List.mem_append_left run hmem)

theorem newline_notMem_trim (h : '\n' ∉ line) : '\n' ∉ trim line :=
  newline_notMem_trimEnd fun hmem => h ((List.dropWhile_suffix isBlank).subset hmem)

end Lines

end Text

namespace Markup

open Text

variable {line text : List Char}

theorem of_mem_shownLines (h : line ∈ shownLines text) :
    '\n' ∉ line ∧ isBlankLine line = false := by
  obtain ⟨hline, hshown⟩ := List.mem_filter.mp h
  exact ⟨newline_notMem_of_mem_lines hline, by simpa using hshown⟩

theorem shownLines_append (h : startsLineAfter true text = true) (more : List Char) :
    shownLines (text ++ more) = shownLines text ++ shownLines more := by
  rw [shownLines, lines_append h, List.filter_append]
  rfl

theorem shownLines_unlines {rows : List (List Char)}
    (h : ∀ row ∈ rows, '\n' ∉ row ∧ EndsShown row) : shownLines (unlines rows) = rows := by
  induction rows with
  | nil => rfl
  | cons row rows ih =>
      obtain ⟨⟨hline, hends⟩, hrest⟩ := List.forall_mem_cons.mp h
      rw [unlines, List.flatMap_cons, List.append_assoc, List.singleton_append, shownLines,
        lines_line_append hline, hends.dropReturn_eq, List.filter_cons, hends.isBlankLine_eq]
      exact congrArg (List.cons row) (ih hrest)

theorem shownLines_blank (h : isBlankLine text = true) : shownLines text = [] := by
  rw [shownLines, List.filter_eq_nil_iff]
  intro line hline
  have hblank : isBlankLine line = true := List.all_eq_true.mpr fun c hc =>
    List.all_eq_true.mp h c (subset_of_mem_lines hline hc)
  rw [hblank]
  decide

theorem isBlank_of_isLineEndBlank {c : Char} (h : isLineEndBlank c = true) : isBlank c = true := by
  rw [isLineEndBlank, Bool.or_eq_true, beq_iff_eq] at h
  obtain rfl | hindent := h
  · rfl
  · exact isBlank_of_isIndent hindent

theorem AreLineEnds.isBlankLine {ends : List Char} (h : AreLineEnds ends) :
    isBlankLine ends = true :=
  List.all_eq_true.mpr fun c hc => isBlank_of_isLineEndBlank (h.isLineEndBlank_of_mem c hc)

theorem dropLineEnds_of_endsShown (h : EndsShown text) : dropLineEnds text = text := by
  obtain ⟨body, last, rfl, hlast⟩ := h
  have hshown : isLineEndBlank last = false := by
    refine Bool.eq_false_iff.mpr fun hend => ?_
    rw [isBlank_of_isLineEndBlank hend] at hlast
    cases hlast
  exact dropLineEnds_shown hshown (List.forall_mem_nil _) body

theorem EndsBlock.startsLineAfter {count : Nat} (h : EndsBlock count text) :
    startsLineAfter true text = true := by
  obtain ⟨body, rfl, _⟩ := h
  have hblank : List.replicate (count + 1) '\n' = List.replicate count '\n' ++ ['\n'] :=
    List.replicate_succ'
  rw [← List.replicate_succ, hblank, ← List.append_assoc, startsLineAfter_append]
  rfl

/-- The space after a block changes nothing in what is shown of it. -/
theorem shownLines_withSpace {node : Node} (hb : node.kind.isBlock = true)
    (hd : node.kind.isDocument = false) (h : startsLineAfter true text = true) :
    shownLines (withSpace node text) = shownLines text := by
  have hblank : ∀ run, isBlankLine run = true →
      shownLines (dropLineEnds text ++ '\n' :: run) =
        shownLines (dropLineEnds text ++ ['\n']) := by
    intro run hrun
    have hends : startsLineAfter true (dropLineEnds text ++ ['\n']) = true := by
      rw [startsLineAfter_append]
      rfl
    rw [List.append_cons, shownLines_append hends, shownLines_blank hrun, List.append_nil]
  by_cases hm : text = []
  · rw [hm]
    rfl
  have hafter : isBlankLine (List.replicate (node.postBlank.getD 0).toNat '\n') = true :=
    List.all_replicate.trans (by simp [isBlank])
  rw [withSpace_of_isBlock hb hd hm, endLine, List.append_assoc, List.singleton_append,
    hblank _ hafter]
  obtain ⟨ends, htext, hends⟩ := exists_areLineEnds text
  obtain rfl | ⟨run, rfl, _⟩ := hends.eq_nil_or_cons
  · rw [List.append_nil] at htext
    rw [← htext, shownLines_append h]
    exact List.append_nil _
  · have hrun := hends.isBlankLine
    rw [isBlankLine, List.all_cons, Bool.and_eq_true] at hrun
    rw [← hblank run hrun.2, ← htext]

end Markup

end OutlineWiki
