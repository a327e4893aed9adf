import OutlineWiki.Markup.Literal
import OutlineWiki.Proofs.Reference.CodeLabels
import OutlineWiki.Proofs.Text.JoinedLines

/-!
Literal blocks line by line.

The labels of the lines, the indentation that they share and the blanks at their ends are taken
away one after another, each from the text as a whole. No step moves a line that shows
something, and the shared indentation depends on such lines alone. So each line that is not
blank stands at its own place in the markup, which is where its label leads.
-/

namespace OutlineWiki
namespace Text

/-- What follows a number of bytes of a text, unless they end beyond the text or within one of
its characters. -/
def afterBytes? : Nat → List Char → Option (List Char)
  | 0, text => some text
  | _ + 1, [] => none
  | count + 1, c :: text =>
    if c.utf8Size ≤ count + 1 then afterBytes? (count + 1 - c.utf8Size) text else none

theorem afterBytes?_getD_subset (count : Nat) (text : List Char) :
    (afterBytes? count text).getD [] ⊆ text := by
  fun_induction afterBytes? count text with
  | case1 text => exact List.Subset.refl text
  | case2 => exact List.nil_subset []
  | case3 count c text hfits ih => exact List.subset_cons_of_subset c ih
  | case4 => exact List.nil_subset _

end Text

namespace Markup

open Text

/-- The count is the smallest indentation of the lines that are not blank, if there are any. -/
structure IsSharedIndentation (rows : List (List Char)) (count : Nat) : Prop where
  le : ∀ row ∈ rows, isBlankLine row = false → count ≤ indentation row
  reached : (∃ row ∈ rows, isBlankLine row = false) →
    ∃ row ∈ rows, isBlankLine row = false ∧ indentation row = count

section Indentation

variable {line : List Char} {rows : List (List Char)} {count : Nat}

theorem isIndent_of_mem_take (h : count ≤ indentation line) {c : Char}
    (hc : c ∈ line.take count) : isIndent c = true := by
  rw [← List.takeWhile_append_dropWhile (p := isIndent) (l := line),
    List.take_append_of_le_length h] at hc
  exact List.mem_takeWhile_imp (List.mem_of_mem_take hc)

theorem isBlankLine_drop (h : count ≤ indentation line) (hl : isBlankLine line = false) :
    isBlankLine (line.drop count) = false := by
  rw [← List.take_append_drop count line, isBlankLine, List.all_append] at hl
  have htake : (line.take count).all isBlank = true :=
    List.all_eq_true.mpr fun c hc => isBlank_of_isIndent (isIndent_of_mem_take h hc)
  rwa [htake, Bool.true_and] at hl

theorem trimEnd_drop (h : count ≤ indentation line) (hl : isBlankLine line = false) :
    trimEnd (line.drop count) = (trimEnd line).drop count := by
  have hlength : (line.take count).length = count :=
    List.length_take_of_le (Nat.le_trans h (List.takeWhile_prefix isIndent).length_le)
  have hkept : ¬ (dropTrailing isBlank (line.drop count)).isEmpty = true := by
    rw [List.isEmpty_iff, ← trimEnd, trimEnd_eq_nil_iff, isBlankLine_drop h hl]
    decide
  have hsplit : trimEnd line = line.take count ++ trimEnd (line.drop count) := by
    have happend := dropTrailing_append isBlank (line.take count) (line.drop count)
    rwa [if_neg hkept, List.take_append_drop] at happend
  rw [hsplit, List.drop_left' hlength]

theorem indentation_trimEnd (hl : isBlankLine line = false) :
    indentation (trimEnd line) = indentation line := by
  obtain ⟨run, hrun, _⟩ := exists_trailing isBlank line
  obtain ⟨body, last, hends, hlast⟩ := endsShown_trimEnd hl
  have hnot : (trimEnd line).takeWhile isIndent ≠ trimEnd line := by
    intro hall
    have hmem : last ∈ (trimEnd line).takeWhile isIndent := by
      rw [hall, hends]
      exact List.mem_append_right _ List.mem_cons_self
    rw [isBlank_of_isIndent (List.mem_takeWhile_imp hmem)] at hlast
    cases hlast
  have hlength : ((trimEnd line).takeWhile isIndent).length ≠ (trimEnd line).length :=
    fun heq => hnot ((List.takeWhile_prefix isIndent).eq_of_length heq)
  conv_rhs => rw [hrun, indentation, List.takeWhile_append]
  exact congrArg List.length (if_neg hlength).symm

/-- Spaces and tabs are single bytes, so their number is the number of bytes to be cut. -/
theorem afterBytes?_of_le_indentation (h : count ≤ indentation line) :
    afterBytes? count line = some (line.drop count) := by
  induction count generalizing line with
  | zero => rw [afterBytes?, List.drop_zero]
  | succ count ih =>
      cases line with
      | nil => cases h
      | cons c line =>
          rw [indentation, List.takeWhile_cons] at h
          split at h
          · next hc =>
              have hsize : c.utf8Size = 1 := by
                rw [isIndent, Bool.or_eq_true, beq_iff_eq, beq_iff_eq] at hc
                obtain rfl | rfl := hc <;> rfl
              rw [afterBytes?, hsize, if_pos (Nat.le_add_left 1 count), Nat.add_sub_cancel,
                List.drop_succ_cons]
              exact ih (Nat.le_of_succ_le_succ h)
          · cases h

theorem isSharedIndentation_sharedIndentation (rows : List (List Char)) :
    IsSharedIndentation rows (sharedIndentation rows) := by
  have hmem : ∀ {row : List Char}, row ∈ rows → isBlankLine row = false →
      row ∈ rows.filter fun line => !isBlankLine line := fun hrow hshown =>
    List.mem_filter.mpr ⟨hrow, by rw [hshown]; rfl⟩
  rw [sharedIndentation]
  cases hmin : ((rows.filter fun line => !isBlankLine line).map indentation).min? with
  | none =>
      have hempty := List.map_eq_nil_iff.mp (List.min?_eq_none_iff.mp hmin)
      have hnone : ∀ row ∈ rows, isBlankLine row = false → False := fun row hrow hshown =>
        List.not_mem_nil (hempty ▸ hmem hrow hshown)
      exact ⟨fun row hrow hshown => (hnone row hrow hshown).elim,
        fun ⟨row, hrow, hshown⟩ => (hnone row hrow hshown).elim⟩
  | some count =>
      obtain ⟨hin, hle⟩ := List.min?_eq_some_iff.mp hmin
      obtain ⟨row, hrow, hcount⟩ := List.mem_map.mp hin
      obtain ⟨hrow, hshown⟩ := List.mem_filter.mp hrow
      exact ⟨fun other ho hs => hle _ (List.mem_map_of_mem (hmem ho hs)),
        fun _ => ⟨row, hrow, by simpa using hshown, hcount⟩⟩

/-- The shared indentation only depends on what shows of the lines. -/
theorem isSharedIndentation_iff :
    IsSharedIndentation rows count ↔
      (∀ place, shownAt rows place ≠ [] → count ≤ indentation (shownAt rows place)) ∧
        ((∃ place, shownAt rows place ≠ []) →
          ∃ place, shownAt rows place ≠ [] ∧ indentation (shownAt rows place) = count) := by
  have hat : ∀ {place : Nat} {row : List Char}, rows[place]? = some row →
      isBlankLine row = false →
        shownAt rows place ≠ [] ∧ indentation (shownAt rows place) = indentation row := by
    intro place row hrow hshown
    refine ⟨shownAt_ne_nil_iff.mpr ⟨row, hrow, hshown⟩, ?_⟩
    rw [shownAt, List.getD_eq_getElem?_getD, hrow]
    exact indentation_trimEnd hshown
  constructor
  · rintro ⟨hle, hreached⟩
    refine ⟨fun place hplace => ?_, fun hexists => ?_⟩
    · obtain ⟨row, hrow, hshown⟩ := shownAt_ne_nil_iff.mp hplace
      rw [(hat hrow hshown).2]
      exact hle row (List.mem_of_getElem? hrow) hshown
    · obtain ⟨place, hplace⟩ := hexists
      obtain ⟨row, hrow, hshown⟩ := shownAt_ne_nil_iff.mp hplace
      obtain ⟨least, hleast, hs, rfl⟩ := hreached ⟨row, List.mem_of_getElem? hrow, hshown⟩
      obtain ⟨own, hown⟩ := List.mem_iff_getElem?.mp hleast
      exact ⟨own, hat hown hs⟩
  · rintro ⟨hle, hreached⟩
    refine ⟨fun row hrow hshown => ?_, fun hexists => ?_⟩
    · obtain ⟨place, hplace⟩ := List.mem_iff_getElem?.mp hrow
      rw [← (hat hplace hshown).2]
      exact hle place (hat hplace hshown).1
    · obtain ⟨row, hrow, hshown⟩ := hexists
      obtain ⟨place, hplace⟩ := List.mem_iff_getElem?.mp hrow
      obtain ⟨own, hown, hcount⟩ := hreached ⟨place, (hat hplace hshown).1⟩
      obtain ⟨least, hleast, hs⟩ := shownAt_ne_nil_iff.mp hown
      exact ⟨least, List.mem_of_getElem? hleast, hs, (hat hleast hs).2.symm.trans hcount⟩

end Indentation

section Blocks

/-- The lines of a text without their shared indentation and without blanks at their ends. -/
def outdentedRows (rows : List (List Char)) : List (List Char) :=
  rows.map fun line => trimEnd (line.drop (sharedIndentation rows))

/-- A line of a literal block without its line end. -/
def literalRow (line : List Char) : List Char :=
  if isBlankLine line then [] else List.replicate 4 ' ' ++ line

theorem isBlankLine_of_subset {line text : List Char} (h : line ⊆ text)
    (ht : isBlankLine text = true) : isBlankLine line = true :=
  List.all_eq_true.mpr fun _ hc => List.all_eq_true.mp ht _ (h hc)

theorem shownAt_outdentedRows (rows : List (List Char)) (place : Nat) :
    shownAt (outdentedRows rows) place = (shownAt rows place).drop (sharedIndentation rows) := by
  have hshared := isSharedIndentation_sharedIndentation rows
  rw [shownAt, shownAt, outdentedRows, List.getD_eq_getElem?_getD, List.getElem?_map,
    List.getD_eq_getElem?_getD]
  cases hrow : rows[place]? with
  | none => exact List.drop_nil.symm
  | some row =>
      rw [Option.map_some, Option.getD_some, Option.getD_some, trimEnd_trimEnd]
      cases hblank : isBlankLine row with
      | true =>
          have hrest : isBlankLine (row.drop (sharedIndentation rows)) = true :=
            isBlankLine_of_subset (List.drop_subset _ row) hblank
          rw [trimEnd_eq_nil_iff.mpr hrest, trimEnd_eq_nil_iff.mpr hblank, List.drop_nil]
      | false => exact trimEnd_drop (hshared.le row (List.mem_of_getElem? hrow) hblank) hblank

theorem newline_notMem_strip {line : List Char} (h : '\n' ∉ line) :
    '\n' ∉ CodeLabel.strip line := by
  rw [CodeLabel.strip]
  cases hsplit : CodeLabel.split? line with
  | none => exact h
  | some found =>
      have hline : trimEnd line = found.1 ++ CodeLabel.marker found.2 :=
        CodeLabel.eq_append_of_split? hsplit
      refine newline_notMem_trimEnd fun hmem => newline_notMem_trimEnd h ?_
      rw [hline]
      exact List.mem_append_left _ hmem

variable (value : List Char)

/-- The lines of a literal text without the markers of their labels. -/
def bareRows : List (List Char) :=
  (lines value).map CodeLabel.strip

theorem newline_notMem_bareRows : ∀ row ∈ bareRows value, '\n' ∉ row := by
  intro row hrow
  obtain ⟨line, hline, rfl⟩ := List.mem_map.mp hrow
  exact newline_notMem_strip (newline_notMem_of_mem_lines hline)

theorem shownAt_stripLabels (place : Nat) :
    shownAt (lines (stripLabels value)) place = shownAt (bareRows value) place :=
  shownAt_lines_joinLines (newline_notMem_bareRows value) place

theorem outdentedRows_clean {row : List Char}
    (h : row ∈ outdentedRows (lines (stripLabels value))) :
    '\n' ∉ row ∧ dropReturn row = row ∧ trimEnd row = row := by
  obtain ⟨line, hline, rfl⟩ := List.mem_map.mp h
  refine ⟨newline_notMem_trimEnd fun hmem => ?_, ?_, trimEnd_trimEnd _⟩
  · exact newline_notMem_of_mem_lines hline (List.mem_of_mem_drop hmem)
  · generalize line.drop _ = rest
    cases hblank : isBlankLine rest with
    | true => rw [trimEnd_eq_nil_iff.mpr hblank]; rfl
    | false => exact (endsShown_trimEnd hblank).dropReturn_eq

/-- The lines of a literal text without labels and shared indentation. -/
theorem outdent_isPrefix :
    lines (outdent (stripLabels value)) <+: outdentedRows (lines (stripLabels value)) :=
  lines_joinLines_isPrefix fun _ hrow =>
    ⟨(outdentedRows_clean value hrow).1, (outdentedRows_clean value hrow).2.1⟩

theorem getD_outdent (place : Nat) :
    (lines (outdent (stripLabels value))).getD place [] =
      (shownAt (bareRows value) place).drop (sharedIndentation (lines (stripLabels value))) := by
  have hshown : shownAt (lines (outdent (stripLabels value))) place =
      (shownAt (bareRows value) place).drop (sharedIndentation (lines (stripLabels value))) := by
    rw [← shownAt_stripLabels, ← shownAt_outdentedRows]
    exact shownAt_lines_joinLines (fun row hrow => (outdentedRows_clean value hrow).1) place
  rw [← hshown, shownAt, List.getD_eq_getElem?_getD]
  cases hrow : (lines (outdent (stripLabels value)))[place]? with
  | none => rfl
  | some row =>
      have hmem := (outdent_isPrefix value).subset (List.mem_of_getElem? hrow)
      exact (outdentedRows_clean value hmem).2.2.symm

theorem literalBlock_eq_unlines :
    literalBlock value = unlines ((lines (outdent (stripLabels value))).map literalRow) := by
  rw [literalBlock, unlines, List.flatMap_map]
  refine List.flatMap_congr fun line _ => ?_
  rw [literalLine, literalRow]
  split <;> rfl

theorem lines_literalBlock :
    lines (literalBlock value) = (lines (outdent (stripLabels value))).map literalRow := by
  rw [literalBlock_eq_unlines]
  refine lines_unlines fun row hrow => ?_
  obtain ⟨line, hline, rfl⟩ := List.mem_map.mp hrow
  obtain ⟨hnewline, _, htrim⟩ :=
    outdentedRows_clean value ((outdent_isPrefix value).subset hline)
  rw [literalRow]
  cases hblank : isBlankLine line with
  | true => exact ⟨List.not_mem_nil, rfl⟩
  | false =>
      have hends := (endsShown_trimEnd hblank).append_left (List.replicate 4 ' ')
      rw [htrim] at hends
      refine ⟨fun hmem => ?_, hends.dropReturn_eq⟩
      obtain hspace | hmem := List.mem_append.mp hmem
      · cases List.eq_of_mem_replicate hspace
      · exact hnewline hmem

end Blocks

/-- The lines stand in the same places of a text, with four spaces in place of the indentation
that they share. Blank lines are shown empty, and may be missing at the end. -/
structure ShowsRows (rows : List (List Char)) (count : Nat) (shown : List (List Char)) : Prop where
  line : ∀ (place : Nat) (row : List Char), rows[place]? = some row → isBlankLine row = false →
    shown[place]? = some (List.replicate 4 ' ' ++ trimEnd (row.drop count))
  indented : ∀ (place : Nat) (row : List Char), rows[place]? = some row → isBlankLine row = false →
    ∃ line, shown[place]? = some line ∧ indentation line + count = indentation row + 4
  blank : ∀ (place later : Nat) (row other : List Char), place < later → rows[place]? = some row →
    isBlankLine row = true → rows[later]? = some other → isBlankLine other = false →
      shown[place]? = some []
  rest : ∀ (place : Nat) (line : List Char), shown[place]? = some line →
    (∀ later row, place ≤ later → rows[later]? = some row → isBlankLine row = true) → line = []

section Shown

variable (value : List Char)

/-- The shared indentation is that of the lines without the markers of their labels. -/
theorem isSharedIndentation_bareRows :
    IsSharedIndentation (bareRows value) (sharedIndentation (lines (stripLabels value))) := by
  have hshared := isSharedIndentation_sharedIndentation (lines (stripLabels value))
  rw [isSharedIndentation_iff] at hshared ⊢
  simpa only [shownAt_stripLabels] using hshared

/-- A line of a literal text is shown in the same place of the block. -/
theorem getD_lines_literalBlock (place : Nat) :
    (lines (literalBlock value)).getD place [] =
      literalRow ((shownAt (bareRows value) place).drop
        (sharedIndentation (lines (stripLabels value)))) := by
  rw [← getD_outdent, lines_literalBlock, List.getD_eq_getElem?_getD, List.getElem?_map,
    List.getD_eq_getElem?_getD]
  cases (lines (outdent (stripLabels value)))[place]? with
  | none => rfl
  | some line => rfl

theorem indentation_append_spaces (count : Nat) (line : List Char) :
    indentation (List.replicate count ' ' ++ line) = count + indentation line := by
  rw [indentation, List.takeWhile_append_of_pos, List.length_append, List.length_replicate]
  · rfl
  · intro c hc
    rw [List.eq_of_mem_replicate hc]
    rfl

theorem indentation_drop {line : List Char} {count : Nat} (h : count ≤ indentation line) :
    indentation (line.drop count) + count = indentation line := by
  have hlength : (line.take count).length = count :=
    List.length_take_of_le (Nat.le_trans h (List.takeWhile_prefix isIndent).length_le)
  conv_rhs => rw [← List.take_append_drop count line, indentation,
    List.takeWhile_append_of_pos fun c hc => isIndent_of_mem_take h hc, List.length_append, hlength]
  exact Nat.add_comm _ _

variable {value} {place : Nat} {row : List Char}

theorem getElem?_lines_literalBlock (hrow : (bareRows value)[place]? = some row)
    (h : isBlankLine row = false) :
    (lines (literalBlock value))[place]? = some (List.replicate 4 ' ' ++
      trimEnd (row.drop (sharedIndentation (lines (stripLabels value))))) := by
  have hle := (isSharedIndentation_bareRows value).le row (List.mem_of_getElem? hrow) h
  have hdrop := isBlankLine_drop hle h
  have hline := getD_lines_literalBlock value place
  rw [shownAt, List.getD_eq_getElem?_getD, List.getD_eq_getElem?_getD, hrow, Option.getD_some,
    ← trimEnd_drop hle h, literalRow, (endsShown_trimEnd hdrop).isBlankLine_eq] at hline
  cases hshown : (lines (literalBlock value))[place]? with
  | none =>
      rw [hshown] at hline
      cases hline
  | some line =>
      rw [hshown] at hline
      exact congrArg some hline

theorem literalRow_shownAt_blank (count : Nat)
    (h : ∀ row, (bareRows value)[place]? = some row → isBlankLine row = true) :
    literalRow ((shownAt (bareRows value) place).drop count) = [] := by
  have hnil : shownAt (bareRows value) place = [] := by
    refine not_not.mp fun hshown => ?_
    obtain ⟨row, hrow, hblank⟩ := shownAt_ne_nil_iff.mp hshown
    rw [h row hrow] at hblank
    cases hblank
  rw [hnil, List.drop_nil]
  rfl

theorem showsRows_literalBlock (value : List Char) :
    ShowsRows (bareRows value) (sharedIndentation (lines (stripLabels value)))
      (lines (literalBlock value)) where
  line place row hrow h := getElem?_lines_literalBlock hrow h
  indented place row hrow h := by
    have hle := (isSharedIndentation_bareRows value).le row (List.mem_of_getElem? hrow) h
    refine ⟨_, getElem?_lines_literalBlock hrow h, ?_⟩
    rw [indentation_append_spaces, indentation_trimEnd (isBlankLine_drop hle h), Nat.add_assoc,
      indentation_drop hle, Nat.add_comm]
  blank place later row other hlt hrow h hother hshown := by
    have hlength : place < (lines (literalBlock value)).length :=
      Nat.lt_trans hlt (List.getElem?_eq_some_iff.mp (getElem?_lines_literalBlock hother hshown)).1
    have hline := getD_lines_literalBlock value place
    rw [literalRow_shownAt_blank _ fun found hfound => by
      cases hrow.symm.trans hfound
      exact h, List.getD_eq_getElem?_getD, List.getElem?_eq_getElem hlength] at hline
    rw [List.getElem?_eq_getElem hlength]
    exact congrArg some hline
  rest place line hline h := by
    have hshown := getD_lines_literalBlock value place
    rwa [literalRow_shownAt_blank _ fun row hrow => h place row (Nat.le_refl place) hrow,
      List.getD_eq_getElem?_getD, hline] at hshown

/-- Each line of a literal text that is not blank stands at its place in the markup, where the
labels of the text are looked for, and the bytes that are cut off it end between characters. -/
theorem literalBlock_showsRows (value : List Char) :
    ∃ count, IsSharedIndentation (bareRows value) count ∧
      literalBlock value = unlines (lines (literalBlock value)) ∧
      ShowsRows (bareRows value) count (lines (literalBlock value)) ∧
      (∀ row ∈ lines (stripLabels value),
        (isBlankLine row = false → afterBytes? count row = some (row.drop count)) ∧
          trimEnd ((afterBytes? count row).getD []) = trimEnd (row.drop count)) ∧
      ∀ (node : Node) (isNumbered : Bool), node.labelledCode? = some (value, isNumbered) →
        ∀ entry ∈ node.labelledLines, ∃ place line, entry.line = place + 1 ∧
          (lines value)[place]? = some line ∧ CodeLabel.Hides line entry.label ∧
            (bareRows value)[place]? = some (CodeLabel.strip line) := by
  refine ⟨sharedIndentation (lines (stripLabels value)), isSharedIndentation_bareRows value, ?_,
    showsRows_literalBlock value, fun row hrow => ?_, fun node isNumbered hcode entry hentry => ?_⟩
  · rw [lines_literalBlock]
    exact literalBlock_eq_unlines value
  · have hcut : isBlankLine row = false →
        afterBytes? (sharedIndentation (lines (stripLabels value))) row =
          some (row.drop (sharedIndentation (lines (stripLabels value)))) := fun hshown =>
      afterBytes?_of_le_indentation
        ((isSharedIndentation_sharedIndentation (lines (stripLabels value))).le row hrow hshown)
    refine ⟨hcut, ?_⟩
    cases hblank : isBlankLine row with
    | false => rw [hcut hblank, Option.getD_some]
    | true =>
        rw [trimEnd_eq_nil_iff.mpr (isBlankLine_of_subset (afterBytes?_getD_subset _ _) hblank),
          trimEnd_eq_nil_iff.mpr (isBlankLine_of_subset (List.drop_subset _ _) hblank)]
  · rw [Node.labelledLines, hcode] at hentry
    obtain ⟨found, hfound, rfl⟩ := List.mem_map.mp hentry
    obtain ⟨place, line, hnumber, hline, hlabel⟩ := CodeLabel.exists_line_of_mem_ofLines hfound
    refine ⟨place, line, hnumber.trans (Nat.add_comm 1 place), hline,
      CodeLabel.hides_iff.mpr hlabel, ?_⟩
    rw [bareRows, List.getElem?_map, hline, Option.map_some]

end Shown

end Markup
end OutlineWiki
