import Mathlib.Data.List.DropRight
import OutlineWiki.Reference.Survey

/-!
Section numbers one after another.

The number of a section comes after the number before it in lexicographic order, whatever the
depths of the two sections. Its components count sections: each counts those of its own depth
since the last section that is less deep. The dotted text of a number gives the number back.
-/

namespace OutlineWiki

/-- Numbers in lexicographic order, where a shorter number comes before its continuations. -/
def Precedes (number later : List Nat) : Prop :=
  List.Lex (· < ·) number later

theorem Precedes.trans {number middle later : List Nat} (h : Precedes number middle)
    (hl : Precedes middle later) : Precedes number later :=
  List.lex_trans (fun hx hy => Nat.lt_trans hx hy) h hl

theorem Precedes.ne {number later : List Nat} (h : Precedes number later) : number ≠ later := by
  rintro rfl
  exact List.lex_irrefl Nat.lt_irrefl number h

section Step

variable (previous : List Nat) {depth : Nat}

theorem nextSectionNumber_one :
    nextSectionNumber previous 1 = [previous.headD 0 + 1] := by
  cases previous <;> rfl

theorem nextSectionNumber_succ (h : 1 ≤ depth) :
    nextSectionNumber previous (depth + 1) =
      previous.headD 0 :: nextSectionNumber previous.tail depth := by
  obtain ⟨depth, rfl⟩ := Nat.exists_eq_add_of_le' h
  simp only [nextSectionNumber, Nat.add_sub_cancel]
  rw [List.range_succ_eq_map, List.map_cons, List.map_map, List.cons_append]
  cases previous <;> rfl

theorem length_nextSectionNumber (h : 1 ≤ depth) :
    (nextSectionNumber previous depth).length = depth := by
  rw [nextSectionNumber, List.length_append, List.length_map, List.length_range,
    List.length_singleton]
  omega

theorem getLast?_nextSectionNumber :
    (nextSectionNumber previous depth).getLast? = some (previous.getD (depth - 1) 0 + 1) :=
  List.getLast?_concat

/-- A number keeps the components before its last one, and loses those after it. -/
theorem getD_nextSectionNumber (h : 1 ≤ depth) (i : Nat) :
    (nextSectionNumber previous depth).getD i 0 =
      if i + 1 < depth then previous.getD i 0
      else if i + 1 = depth then previous.getD i 0 + 1 else 0 := by
  induction depth, h using Nat.le_induction generalizing previous i with
  | base =>
      rw [nextSectionNumber_one]
      cases i <;> cases previous <;> simp
  | succ depth h ih =>
      rw [nextSectionNumber_succ previous h]
      cases i with
      | zero =>
          have hlt : 0 + 1 < depth + 1 := by omega
          rw [if_pos hlt]
          cases previous <;> rfl
      | succ i =>
          have hrest := ih previous.tail i
          have htail : previous.tail.getD i 0 = previous.getD (i + 1) 0 := by
            cases previous <;> rfl
          rw [htail] at hrest
          simpa only [List.getD_cons_succ, Nat.add_lt_add_iff_right, Nat.add_right_cancel_iff]
            using hrest

theorem precedes_nextSectionNumber (h : 1 ≤ depth) :
    Precedes previous (nextSectionNumber previous depth) := by
  induction depth, h using Nat.le_induction generalizing previous with
  | base =>
      rw [nextSectionNumber_one]
      cases previous with
      | nil => exact .nil
      | cons first rest => exact .rel (Nat.lt_succ_self first)
  | succ depth h ih =>
      rw [nextSectionNumber_succ previous h]
      cases previous with
      | nil => exact .nil
      | cons first rest => exact .cons (ih rest)

/-- The components after the given depth do not count. -/
theorem nextSectionNumber_congr {number other : List Nat} (h : 1 ≤ depth)
    (hc : ∀ i < depth, number.getD i 0 = other.getD i 0) :
    nextSectionNumber number depth = nextSectionNumber other depth := by
  rw [nextSectionNumber, nextSectionNumber, hc (depth - 1) (by omega)]
  congr 1
  refine List.map_congr_left fun i hi => hc i ?_
  have hi := List.mem_range.mp hi
  omega

/-- A section in between leaves no trace in the number of a section that is less deep. -/
theorem nextSectionNumber_nextSectionNumber {deeper : Nat} (h : 1 ≤ depth)
    (hlt : depth < deeper) :
    nextSectionNumber (nextSectionNumber previous deeper) depth =
      nextSectionNumber previous depth := by
  refine nextSectionNumber_congr h fun i hi => ?_
  rw [getD_nextSectionNumber previous (by omega), if_pos (by omega)]

/-- A section in between moves on the numbers of all sections that are as deep. -/
theorem precedes_nextSectionNumber_nextSectionNumber {upper : Nat} (h : 1 ≤ upper)
    (hle : upper ≤ depth) :
    Precedes (nextSectionNumber previous depth)
      (nextSectionNumber (nextSectionNumber previous upper) depth) := by
  induction upper, h using Nat.le_induction generalizing previous depth with
  | base =>
      rw [nextSectionNumber_one]
      obtain rfl | hlt := hle.eq_or_lt
      · rw [nextSectionNumber_one, nextSectionNumber_one]
        exact .rel (Nat.lt_succ_self _)
      · obtain ⟨depth, rfl⟩ := Nat.exists_eq_add_of_le' (Nat.le_of_lt hlt)
        have hdepth : 1 ≤ depth := Nat.lt_succ_iff.mp hlt
        rw [nextSectionNumber_succ _ hdepth, nextSectionNumber_succ _ hdepth]
        exact .rel (Nat.lt_succ_self _)
  | succ upper h ih =>
      obtain ⟨depth, rfl⟩ := Nat.exists_eq_add_of_le' (Nat.le_trans (Nat.le_add_left 1 _) hle)
      have hle := Nat.le_of_succ_le_succ hle
      have hdepth := Nat.le_trans h hle
      rw [nextSectionNumber_succ previous h, nextSectionNumber_succ _ hdepth,
        nextSectionNumber_succ _ hdepth]
      exact .cons (ih previous.tail hle)

/-- Numbers of one length stay in order when a section follows that is as deep. -/
theorem Precedes.nextSectionNumber {number later : List Nat} (h : Precedes number later)
    (hlength : number.length = later.length) (hle : number.length ≤ depth) :
    Precedes (nextSectionNumber number depth) (nextSectionNumber later depth) := by
  induction h generalizing depth with
  | nil => cases hlength
  | @rel a rest b more hab =>
      obtain ⟨depth, rfl⟩ := Nat.exists_eq_add_of_le' (Nat.le_trans (Nat.le_add_left 1 _) hle)
      obtain rfl | hdepth := Nat.eq_zero_or_pos depth
      · rw [nextSectionNumber_one, nextSectionNumber_one]
        exact .rel (Nat.succ_lt_succ hab)
      · rw [nextSectionNumber_succ _ hdepth, nextSectionNumber_succ _ hdepth]
        exact .rel hab
  | @cons a rest more hrest ih =>
      have hlength := Nat.succ.inj hlength
      have hne : more ≠ [] := by
        rintro rfl
        cases hrest
      have hpos : 1 ≤ rest.length := hlength ▸ List.length_pos_iff.mpr hne
      obtain ⟨depth, rfl⟩ := Nat.exists_eq_add_of_le' (Nat.le_trans (Nat.le_add_left 1 _) hle)
      have hle := Nat.le_of_succ_le_succ hle
      have hdepth := Nat.le_trans hpos hle
      rw [nextSectionNumber_succ _ hdepth, nextSectionNumber_succ _ hdepth]
      exact .cons (ih hlength hle)

end Step

/-- The number of the last of some sections with given depths. -/
def lastSectionNumber (depths : List Nat) : List Nat :=
  depths.foldl nextSectionNumber []

theorem lastSectionNumber_concat (depths : List Nat) (depth : Nat) :
    lastSectionNumber (depths ++ [depth]) =
      nextSectionNumber (lastSectionNumber depths) depth := by
  rw [lastSectionNumber, List.foldl_append]
  rfl

/-- How many sections of a depth there are after the last one that is less deep. -/
def sectionsSince (depth : Nat) (depths : List Nat) : Nat :=
  (depths.rtakeWhile fun other => depth ≤ other).count depth

theorem sectionsSince_concat (depth : Nat) (depths : List Nat) (last : Nat) :
    sectionsSince depth (depths ++ [last]) =
      if depth < last then sectionsSince depth depths
      else if depth = last then sectionsSince depth depths + 1 else 0 := by
  rw [sectionsSince, List.rtakeWhile_concat]
  obtain hlt | rfl | hgt := Nat.lt_trichotomy depth last
  · have hle : depth ≤ last := hlt.le
    have hne : last ≠ depth := hlt.ne'
    simp [hle, hlt, List.count_append, hne, sectionsSince]
  · simp [List.count_append, sectionsSince]
  · have hnot : ¬ depth ≤ last := by omega
    have hlt : ¬ depth < last := by omega
    simp [hnot, hlt, hgt.ne']

/-- Each component counts the sections of its depth since the last one that is less deep. -/
theorem getD_lastSectionNumber {depths : List Nat} (h : ∀ depth ∈ depths, 1 ≤ depth) (i : Nat) :
    (lastSectionNumber depths).getD i 0 = sectionsSince (i + 1) depths := by
  induction depths using List.reverseRecOn with
  | nil => rfl
  | append_singleton depths last ih =>
      have hdepths := ih fun depth hd => h depth (List.mem_append_left _ hd)
      have hlast := h last (List.mem_append_right _ (List.mem_singleton_self last))
      rw [lastSectionNumber_concat, getD_nextSectionNumber _ hlast, hdepths,
        sectionsSince_concat]

-- A level that is left out counts zero, and starts again after a section that is less deep.
example :
    [[1], [1, 3], [1, 3, 2], [1, 3, 2, 2]].map lastSectionNumber =
      [[1], [1, 0, 1], [1, 1], [1, 2]] := by
  decide

section Text

theorem isDigit_of_mem_digits {number : Nat} {c : Char} (h : c ∈ digits number) :
    c.isDigit = true :=
  Nat.isDigit_of_mem_toDigits (by decide) (by decide) h

theorem digits_injective : Function.Injective digits := by
  intro number other h
  have hread := congrArg (Nat.ofDigitChars 10 · 0) h
  simpa only [digits, Nat.ofDigitChars_toDigits (by decide : 1 < 10) (by decide : 10 ≤ 10)]
    using hread

namespace Ordinal

/-- What follows the first component in the dotted text of a number. -/
def dottedRest : List Nat → List Char
  | [] => []
  | next :: rest => '.' :: (dotted (next :: rest)).text

theorem text_dotted_cons (number : Nat) (rest : List Nat) :
    (dotted (number :: rest)).text = digits number ++ dottedRest rest := by
  cases rest with
  | nil => rfl
  | cons next rest =>
      rw [text, Text.join, List.map_cons, List.map_cons, List.intercalate_cons_cons,
        List.append_assoc]
      rfl

theorem text_dotted_ne_nil (number : Nat) (rest : List Nat) :
    (dotted (number :: rest)).text ≠ [] := by
  rw [text_dotted_cons]
  exact fun h => Nat.toDigits_ne_nil (List.append_eq_nil_iff.mp h).1

/-- The first component ends where the first character stands that is no digit. -/
theorem takeWhile_text_dotted (number : Nat) (rest : List Nat) :
    (dotted (number :: rest)).text.takeWhile Char.isDigit = digits number := by
  have hrest : (dottedRest rest).takeWhile Char.isDigit = [] := by cases rest <;> rfl
  rw [text_dotted_cons, List.takeWhile_append_of_pos fun c hc => isDigit_of_mem_digits hc, hrest,
    List.append_nil]

/-- Different numbers have different dotted texts. -/
theorem text_dotted_injective : Function.Injective fun numbers => (dotted numbers).text := by
  intro numbers others h
  induction numbers generalizing others with
  | nil =>
      cases others with
      | nil => rfl
      | cons other others => exact absurd h.symm (text_dotted_ne_nil other others)
  | cons number rest ih =>
      cases others with
      | nil => exact absurd h (text_dotted_ne_nil number rest)
      | cons other others =>
          have hdigits : digits number = digits other := by
            rw [← takeWhile_text_dotted number rest, ← takeWhile_text_dotted other others]
            exact congrArg (List.takeWhile Char.isDigit) h
          obtain rfl := digits_injective hdigits
          simp only [text_dotted_cons, List.append_cancel_left_eq] at h
          refine congrArg (List.cons number) ?_
          cases rest <;> cases others
          · rfl
          · cases h
          · cases h
          · exact ih (List.cons.inj h).2

end Ordinal

end Text

end OutlineWiki
