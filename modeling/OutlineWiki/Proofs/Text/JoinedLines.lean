import OutlineWiki.Proofs.Text.Shown

/-!
Lines that are joined and split again.

Carriage returns and empty lines at the end can get lost when lines are joined to a text that
is split again. What stays is the line at a place as far as it shows, which is without the
blanks at its end and empty where there is no line.
-/

namespace OutlineWiki
namespace Text

variable {rows : List (List Char)}

/-- What shows of the line at a place, which is nothing where there is no line. -/
def shownAt (rows : List (List Char)) (place : Nat) : List Char :=
  trimEnd (rows.getD place [])

theorem trimEnd_trimEnd (line : List Char) : trimEnd (trimEnd line) = trimEnd line :=
  dropTrailing_eq_self (of_mem_getLast?_dropTrailing line)

theorem trimEnd_dropReturn (line : List Char) : trimEnd (dropReturn line) = trimEnd line := by
  rw [dropReturn]
  split
  · next hlast =>
      obtain ⟨init, rfl⟩ := List.getLast?_eq_some_iff.mp hlast
      rw [List.dropLast_concat, trimEnd, trimEnd, dropTrailing_append_singleton]
      rfl
  · rfl

theorem shownAt_ne_nil_iff {place : Nat} :
    shownAt rows place ≠ [] ↔ ∃ row, rows[place]? = some row ∧ isBlankLine row = false := by
  rw [shownAt, Ne, trimEnd_eq_nil_iff, List.getD_eq_getElem?_getD, Bool.not_eq_true]
  cases rows[place]? with
  | none => simp [isBlankLine]
  | some row => simp

theorem joinLines_singleton (row : List Char) : joinLines [row] = row := by
  rw [joinLines, join, List.intercalate_singleton]

theorem joinLines_cons_cons (row next : List Char) (rows : List (List Char)) :
    joinLines (row :: next :: rows) = row ++ '\n' :: joinLines (next :: rows) :=
  join_cons_cons '\n' row next rows

/-- Lines that are joined and split again show the same at each place. -/
theorem shownAt_lines_joinLines (h : ∀ row ∈ rows, '\n' ∉ row) (place : Nat) :
    shownAt (lines (joinLines rows)) place = shownAt rows place := by
  induction rows generalizing place with
  | nil => rfl
  | cons row rows ih =>
      obtain ⟨hrow, hrest⟩ := List.forall_mem_cons.mp h
      cases rows with
      | nil =>
          rw [joinLines_singleton, lines_line hrow]
          split
          · next hempty =>
              rw [List.isEmpty_iff.mp hempty]
              cases place <;> rfl
          · rfl
      | cons next rows =>
          rw [joinLines_cons_cons, lines_line_append hrow]
          cases place with
          | zero => exact trimEnd_dropReturn row
          | succ place => exact ih hrest place

/-- Lines that keep their ends are found again, apart from an empty line at the end. -/
theorem lines_joinLines_isPrefix (h : ∀ row ∈ rows, '\n' ∉ row ∧ dropReturn row = row) :
    lines (joinLines rows) <+: rows := by
  induction rows with
  | nil => exact List.prefix_rfl
  | cons row rows ih =>
      obtain ⟨⟨hline, hreturn⟩, hrest⟩ := List.forall_mem_cons.mp h
      cases rows with
      | nil =>
          rw [joinLines_singleton, lines_line hline]
          split
          · exact List.nil_prefix
          · exact List.prefix_rfl
      | cons next rows =>
          rw [joinLines_cons_cons, lines_line_append hline, hreturn]
          exact List.cons_prefix_cons.mpr ⟨rfl, ih hrest⟩

theorem lines_unlines (h : ∀ row ∈ rows, '\n' ∉ row ∧ dropReturn row = row) :
    lines (unlines rows) = rows := by
  induction rows with
  | nil => rfl
  | cons row rows ih =>
      obtain ⟨⟨hline, hreturn⟩, hrest⟩ := List.forall_mem_cons.mp h
      rw [unlines, List.flatMap_cons, List.append_assoc, List.singleton_append,
        lines_line_append hline, hreturn]
      exact congrArg (List.cons row) (ih hrest)

end Text
end OutlineWiki
