import Mathlib.Data.List.Forall2
import OutlineWiki.Proofs.Text.Shown

/-!
Rows of an item.

An item shows a row for each line that its children show, with its bullet in front. The mark goes
before the line of the first row, or has a row of its own when a list comes first or nothing is
shown. So apart from the mark no row holds a newline, and none of them is blank.
-/

namespace OutlineWiki

open Text

/-- What stands in a row behind the bullets. -/
inductive Entry where
  | text (line : List Char)
  | marked (mark line : List Char)
  | alone (mark : List Char)

namespace Entry

def shown : Entry → List Char
  | .text line => trimEnd line
  | .marked mark line => mark ++ trim line
  | .alone mark => trimEnd mark

/-- The entries of an item before its first list, the first of them with the mark. -/
def lead : Option (List Char) → List (List Char) → List Entry
  | none, lines => lines.map text
  | some mark, [] => [alone mark]
  | some mark, line :: rest => marked mark line :: rest.map text

theorem lead_append (mark : Option (List Char)) (lines : List (List Char)) (line : List Char)
    (more : List (List Char)) :
    lead mark (line :: more ++ lines) = lead mark (line :: more) ++ lead none lines := by
  cases mark with
  | none => exact List.map_append
  | some mark => exact congrArg (List.cons _) List.map_append

end Entry

namespace Markup

theorem bullet_ne_newline (type : ListType) : bullet type ≠ '\n' := by
  cases type <;> decide

variable (c : Char)

/-- The rows of a child of an item, which is a list that has bullets already or is not. -/
def partRows (part : Bool × List Char) : List (List Char) :=
  (shownLines part.2).map fun line =>
    if part.1 then c :: trimEnd line else c :: ' ' :: trimEnd line

/-- The lines of the children before the first list. -/
def leadingLines (parts : List (Bool × List Char)) : List (List Char) :=
  (parts.takeWhile fun part => !part.1).flatMap fun part => shownLines part.2

/-- A row of an item with its bullet. -/
def entryRow (entry : Entry) : List Char :=
  c :: ' ' :: entry.shown

/-- The rows of an item, the first of them with the mark. -/
def itemRows (mark : Option (List Char)) (parts : List (Bool × List Char)) : List (List Char) :=
  (Entry.lead mark (leadingLines parts)).map (entryRow c) ++
    (parts.dropWhile fun part => !part.1).flatMap (partRows c)

/-- Once a line has the mark, what is left of an item is laid out as without a mark. -/
theorem itemRows_text (mark : Option (List Char)) (markup : List Char)
    (parts : List (Bool × List Char)) :
    itemRows c mark ((false, markup) :: parts) =
      match shownLines markup with
      | [] => itemRows c mark parts
      | line :: more => (Entry.lead mark (line :: more)).map (entryRow c) ++
          itemRows c none parts := by
  have hleading : leadingLines ((false, markup) :: parts) =
      shownLines markup ++ leadingLines parts := rfl
  rw [itemRows, hleading]
  cases shownLines markup with
  | nil => rfl
  | cons line more =>
      rw [Entry.lead_append, List.map_append, List.append_assoc]
      rfl

theorem itemRows_none (parts : List (Bool × List Char)) :
    itemRows c none parts = parts.flatMap (partRows c) := by
  induction parts with
  | nil => rfl
  | cons part parts ih =>
      obtain ⟨isList, markup⟩ := part
      cases isList with
      | true => rfl
      | false =>
          rw [itemRows_text, List.flatMap_cons, ih, partRows]
          cases shownLines markup with
          | nil => rfl
          | cons line more => exact congrArg (· ++ _) List.map_map

theorem leadingLines_append (parts : List (Bool × List Char)) :
    (leadingLines parts ++ (parts.dropWhile fun part => !part.1).flatMap
      fun part => shownLines part.2) = parts.flatMap fun part => shownLines part.2 := by
  rw [leadingLines, ← List.flatMap_append, List.takeWhile_append_dropWhile]

/-- A mark has a row of its own before the others, or goes before the line of the first row. -/
theorem itemRows_some (mark : List Char) (parts : List (Bool × List Char)) :
    itemRows c (some mark) parts = entryRow c (.alone mark) :: itemRows c none parts ∨
      ∃ line lines rows, ('\n' ∉ line ∧ isBlankLine line = false) ∧
        (parts.flatMap fun part => shownLines part.2) = line :: lines ∧
        itemRows c none parts = entryRow c (.text line) :: rows ∧
        itemRows c (some mark) parts = entryRow c (.marked mark line) :: rows := by
  have hshown : ∀ line ∈ leadingLines parts, '\n' ∉ line ∧ isBlankLine line = false := by
    intro line hline
    obtain ⟨part, _, hmem⟩ := List.mem_flatMap.mp hline
    exact of_mem_shownLines hmem
  rw [itemRows, itemRows, ← leadingLines_append]
  cases hlines : leadingLines parts with
  | nil => exact .inl rfl
  | cons line more =>
      exact .inr ⟨line, _, _, hshown line (hlines ▸ List.mem_cons_self), rfl, rfl, rfl⟩

section Lines

theorem textLines_eq_unlines (mark : Option (List Char)) (line : List Char)
    (more : List (List Char)) :
    textLines c mark (line :: more) =
      unlines ((Entry.lead mark (line :: more)).map (entryRow c)) := by
  have hmore : (more.flatMap fun line => itemLine c (trimEnd line)) =
      unlines ((more.map Entry.text).map (entryRow c)) := by
    rw [unlines, List.flatMap_map, List.flatMap_map]
    rfl
  cases mark with
  | none => exact congrArg (itemLine c (trimEnd line) ++ ·) hmore
  | some mark => exact congrArg (itemLine c (mark ++ trim line) ++ ·) hmore

theorem markLine_eq_unlines (mark : Option (List Char)) :
    markLine c mark = unlines ((Entry.lead mark []).map (entryRow c)) := by
  cases mark with
  | none => rfl
  | some mark => exact (List.append_nil _).symm

theorem nestedLines_eq_unlines (markup : List Char) :
    (shownLines markup).flatMap (nestedLine c) = unlines (partRows c (true, markup)) := by
  rw [unlines, partRows, List.flatMap_map]
  rfl

theorem itemLines_eq_unlines (mark : Option (List Char)) (parts : List (Bool × List Char)) :
    itemLines c mark parts = unlines (itemRows c mark parts) := by
  induction parts generalizing mark with
  | nil =>
      rw [itemLines, markLine_eq_unlines]
      exact congrArg unlines (List.append_nil _).symm
  | cons part parts ih =>
      obtain ⟨isList, markup⟩ := part
      cases isList with
      | true =>
          have hrows : itemRows c mark ((true, markup) :: parts) =
              (Entry.lead mark []).map (entryRow c) ++
                (partRows c (true, markup) ++ parts.flatMap (partRows c)) := rfl
          rw [itemLines, hrows, unlines_append, unlines_append, ← itemRows_none, ← ih,
            markLine_eq_unlines, nestedLines_eq_unlines, List.append_assoc]
      | false =>
          rw [itemLines, itemRows_text]
          cases shownLines markup with
          | nil => exact ih mark
          | cons line more =>
              rw [unlines_append, ← textLines_eq_unlines, ← ih]
              rfl

end Lines

section Shown

/-- A row has a bullet and behind it what a line shows that is not blank. -/
def IsRowOf (line row : List Char) : Prop :=
  ('\n' ∉ line ∧ isBlankLine line = false) ∧
    (row = c :: trimEnd line ∨ row = c :: ' ' :: trimEnd line)

variable {c} {line row : List Char}

theorem forall₂_partRows (part : Bool × List Char) :
    List.Forall₂ (IsRowOf c) (shownLines part.2) (partRows c part) := by
  refine List.forall₂_map_right_iff.mpr (List.forall₂_same.mpr fun line hline => ?_)
  refine ⟨of_mem_shownLines hline, ?_⟩
  split
  · exact .inl rfl
  · exact .inr rfl

/-- Without a mark, an item has one row for each line that a child shows, in the same order. -/
theorem forall₂_itemRows (parts : List (Bool × List Char)) :
    List.Forall₂ (IsRowOf c) (parts.flatMap fun part => shownLines part.2)
      (itemRows c none parts) := by
  rw [itemRows_none]
  induction parts with
  | nil => exact .nil
  | cons part parts ih =>
      rw [List.flatMap_cons, List.flatMap_cons]
      exact List.rel_append (forall₂_partRows part) ih

theorem exists_isRowOf {parts : List (Bool × List Char)} (h : row ∈ itemRows c none parts) :
    ∃ line, IsRowOf c line row := by
  obtain ⟨place, hplace, rfl⟩ := List.mem_iff_getElem.mp h
  have hrows := forall₂_itemRows (c := c) parts
  exact ⟨_, hrows.get (hrows.length_eq ▸ hplace) hplace⟩

theorem IsRowOf.head?_eq (h : IsRowOf c line row) : row.head? = some c := by
  obtain ⟨_, rfl | rfl⟩ := h <;> rfl

theorem IsRowOf.newline_notMem (h : IsRowOf c line row) (hc : c ≠ '\n') : '\n' ∉ row := by
  obtain ⟨⟨hline, _⟩, hrow⟩ := h
  have htrimmed := newline_notMem_trimEnd hline
  obtain rfl | rfl := hrow
  · exact List.not_mem_cons_of_ne_of_not_mem hc.symm htrimmed
  · exact List.not_mem_cons_of_ne_of_not_mem hc.symm
      (List.not_mem_cons_of_ne_of_not_mem (by decide) htrimmed)

end Shown

end Markup

end OutlineWiki
