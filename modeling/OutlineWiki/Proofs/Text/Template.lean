import Mathlib.Data.List.Infix
import OutlineWiki.Text.Template

/-!
Filling a template that is made from a text.

Text that holds no mark of a template is kept as it is. Every mark makes a template shorter,
so a text around one placeholder comes through unchanged only if it holds no further mark,
and if its own percent sign does not take the placeholder apart.
-/

namespace OutlineWiki.Text

/-- The characters that make a mark with a percent sign before them. -/
def markLetters : List Char :=
  ['s', 'd', '%']

/-- A text without any mark of a template. -/
def IsLiteral (text : List Char) : Prop :=
  ∀ letter ∈ markLetters, ¬ ['%', letter] <:+: text

instance (text : List Char) : Decidable (IsLiteral text) :=
  List.decidableBAll (fun letter => ¬ ['%', letter] <:+: text) markLetters

variable {text before after rest value : List Char} {arguments : List (List Char)}

theorem IsLiteral.of_infix {part : List Char} (h : IsLiteral text) (hp : part <:+: text) :
    IsLiteral part :=
  fun letter hl hin => h letter hl (hin.trans hp)

/-- A percent sign after a text makes no mark, unless one stands just before it. -/
theorem IsLiteral.concat (h : IsLiteral text) (hlast : text.getLast? ≠ some '%') :
    IsLiteral (text ++ ['%']) := by
  intro letter hl hin
  obtain ⟨start, hstart⟩ | hin := List.infix_concat_iff.mp hin
  · have heq : (start ++ ['%']) ++ [letter] = text ++ ['%'] := by simpa using hstart
    have hcut : start ++ ['%'] = text := (List.append_inj' heq rfl).1
    exact hlast (by rw [← hcut, List.getLast?_concat])
  · exact h letter hl hin

/-- A mark stands for the next argument, or for a percent sign. -/
theorem fill_mark {letter : Char} (hl : letter ∈ markLetters) (rest : List Char)
    (arguments : List (List Char)) :
    fill ('%' :: letter :: rest) arguments = arguments.headD [] ++ fill rest arguments.tail ∨
      fill ('%' :: letter :: rest) arguments = '%' :: fill rest arguments := by
  simp only [markLetters, List.mem_cons, List.not_mem_nil, or_false] at hl
  obtain rfl | rfl | rfl := hl
  · exact .inl rfl
  · exact .inl rfl
  · exact .inr rfl

/-- Text without marks is kept, if it makes no mark with what follows. -/
theorem fill_literal_append (h : IsLiteral (before ++ ['%'])) :
    fill (before ++ rest) arguments = before ++ fill rest arguments := by
  induction before with
  | nil => rfl
  | cons c before ih =>
      have htail : IsLiteral (before ++ ['%']) := h.of_infix (List.suffix_cons c _).isInfix
      by_cases hc : c = '%'
      · subst hc
        cases before with
        | nil => exact absurd List.infix_rfl (h '%' (by decide))
        | cons d before =>
            have hd : ∀ letter ∈ markLetters, d ≠ letter := by
              rintro letter hl rfl
              exact h d hl ⟨[], before ++ ['%'], rfl⟩
            have hstep : fill ('%' :: d :: (before ++ rest)) arguments =
                '%' :: fill (d :: (before ++ rest)) arguments := by
              rw [fill.eq_3, if_neg (not_or.mpr ⟨hd 's' (by decide), hd 'd' (by decide)⟩),
                if_neg (hd '%' (by decide))]
            exact hstep.trans (congrArg ('%' :: ·) (ih htail))
      · rw [List.cons_append, fill_cons hc, ih htail, List.cons_append]

theorem fill_literal (h : IsLiteral text) (arguments : List (List Char)) :
    fill text arguments = text := by
  fun_induction fill text arguments with
  | case1 => rfl
  | case2 => rfl
  | case3 letter rest arguments hletter ih =>
      refine absurd ⟨[], rest, rfl⟩ (h letter ?_)
      obtain rfl | rfl := hletter <;> decide
  | case4 rest arguments _ ih => exact absurd ⟨[], rest, rfl⟩ (h '%' (by decide))
  | case5 letter rest arguments _ _ ih =>
      rw [ih (h.of_infix (List.suffix_cons _ _).isInfix)]
  | case6 c rest arguments _ _ ih =>
      rw [ih (h.of_infix (List.suffix_cons _ _).isInfix)]

/-- A text with a mark has a first one. -/
theorem exists_mark (h : ¬ IsLiteral text) : ∃ before, ∃ letter ∈ markLetters, ∃ rest,
    text = before ++ '%' :: letter :: rest ∧ IsLiteral (before ++ ['%']) := by
  induction text with
  | nil => exact absurd (fun letter _ hin => by simpa using List.infix_nil.mp hin) h
  | cons c text ih =>
      by_cases hstart : ∃ letter ∈ markLetters, ['%', letter] <+: c :: text
      · obtain ⟨letter, hl, rest, hrest⟩ := hstart
        refine ⟨[], letter, hl, rest, hrest.symm, fun other _ hin => ?_⟩
        have hlength := hin.length_le
        simp at hlength
      · have hnone : ∀ letter ∈ markLetters, ¬ ['%', letter] <+: c :: text :=
          fun letter hl hin => hstart ⟨letter, hl, hin⟩
        have htext : ¬ IsLiteral text := fun hliteral => h fun letter hl hin =>
          (List.infix_cons_iff.mp hin).elim (hnone letter hl) (hliteral letter hl)
        obtain ⟨before, letter, hl, rest, rfl, hbefore⟩ := ih htext
        refine ⟨c :: before, letter, hl, rest, rfl, fun other ho hin => ?_⟩
        obtain hstarts | hin := List.infix_cons_iff.mp hin
        · refine hnone other ho (hstarts.trans ⟨letter :: rest, ?_⟩)
          simp
        · exact hbefore other ho hin

theorem length_fill_le (text : List Char) (arguments : List (List Char)) :
    (fill text arguments).length ≤ text.length + arguments.flatten.length := by
  fun_induction fill text arguments with
  | case1 => exact Nat.zero_le _
  | case2 => exact Nat.le_add_right _ _
  | case3 letter rest arguments _ ih =>
      cases arguments with
      | nil =>
          simp only [List.headD_nil, List.tail_nil, List.nil_append, List.length_cons] at ih ⊢
          omega
      | cons argument arguments =>
          simp only [List.headD_cons, List.tail_cons, List.length_append, List.length_cons,
            List.flatten_cons] at ih ⊢
          omega
  | case4 rest arguments _ ih => simp only [List.length_cons]; omega
  | case5 letter rest arguments _ _ ih => simp only [List.length_cons] at ih ⊢; omega
  | case6 c rest arguments _ _ ih => simp only [List.length_cons]; omega

/-- The bound is missed by more than nothing, unless there is nothing to insert. -/
theorem length_fill_lt (hvalue : value ≠ []) (text : List Char) :
    (fill text [value]).length < text.length + value.length := by
  have hpos : 0 < value.length := List.length_pos_iff.mpr hvalue
  generalize hone : [value] = arguments
  fun_induction fill text arguments with
  | case1 => simpa using hpos
  | case2 => simpa using hpos
  | case3 letter rest arguments _ _ =>
      subst hone
      have hrest := length_fill_le rest []
      simp only [List.headD_cons, List.tail_cons, List.length_append, List.length_cons,
        List.flatten_nil, List.length_nil] at hrest ⊢
      omega
  | case4 rest arguments _ ih =>
      have hrest := ih hone
      simp only [List.length_cons]
      omega
  | case5 letter rest arguments _ _ ih =>
      have hrest := ih hone
      simp only [List.length_cons] at hrest ⊢
      omega
  | case6 c rest arguments _ _ ih =>
      have hrest := ih hone
      simp only [List.length_cons]
      omega

section Marked

variable (h : ¬ IsLiteral text)
include h

theorem length_fill_nil_lt : (fill text []).length < text.length := by
  obtain ⟨before, letter, hl, rest, rfl, hbefore⟩ := exists_mark h
  have hrest := length_fill_le rest []
  rw [fill_literal_append hbefore]
  simp only [List.flatten_nil, List.length_nil, List.length_append, List.length_cons] at hrest ⊢
  obtain heq | heq := fill_mark hl rest []
  · rw [heq, List.headD_nil, List.tail_nil, List.nil_append]
    omega
  · rw [heq, List.length_cons]
    omega

theorem length_fill_add_two_le (hvalue : value ≠ []) :
    (fill text [value]).length + 2 ≤ text.length + value.length := by
  obtain ⟨before, letter, hl, rest, rfl, hbefore⟩ := exists_mark h
  have hnil := length_fill_le rest []
  have hrest := length_fill_lt hvalue rest
  rw [fill_literal_append hbefore]
  simp only [List.flatten_nil, List.length_nil, List.length_append, List.length_cons] at hnil ⊢
  obtain heq | heq := fill_mark hl rest [value]
  · rw [heq, List.headD_cons, List.tail_cons, List.length_append]
    omega
  · rw [heq, List.length_cons]
    omega

end Marked

theorem fill_nil_eq_self_iff : fill text [] = text ↔ IsLiteral text := by
  refine ⟨fun heq => ?_, fun h => fill_literal h []⟩
  by_contra h
  have hlength := length_fill_nil_lt h
  rw [heq] at hlength
  exact Nat.lt_irrefl _ hlength

/-- A mark before the placeholder leaves the filled template too short. -/
theorem length_fill_placeholder_lt (h : ¬ IsLiteral before) (hvalue : value ≠ [])
    (after : List Char) :
    (fill (before ++ "%s".toList ++ after) [value]).length <
      before.length + value.length + after.length := by
  obtain ⟨start, letter, hl, rest, rfl, hstart⟩ := exists_mark h
  have hmore : ¬ IsLiteral (rest ++ "%s".toList ++ after) :=
    fun hliteral => hliteral 's' (by decide) ⟨rest, after, rfl⟩
  have hnil := length_fill_nil_lt hmore
  have hone := length_fill_add_two_le hmore hvalue
  have htwo : "%s".toList.length = 2 := rfl
  simp only [List.append_assoc, List.cons_append] at hnil hone ⊢
  rw [fill_literal_append hstart]
  simp only [List.length_append, List.length_cons, htwo] at hnil hone ⊢
  obtain heq | heq := fill_mark hl (rest ++ ("%s".toList ++ after)) [value]
  · rw [heq, List.headD_cons, List.tail_cons, List.length_append]
    omega
  · rw [heq, List.length_cons]
    omega

/-- A template made from a text gives the text back around its argument exactly when the text
holds no mark and no percent sign takes the placeholder apart, but for the letter `s` itself. -/
theorem fill_placeholder_eq_iff (hvalue : value ≠ []) :
    fill (before ++ "%s".toList ++ after) [value] = before ++ value ++ after ↔
      IsLiteral before ∧ IsLiteral after ∧ (before.getLast? = some '%' → value = ['s']) := by
  by_cases hbefore : IsLiteral before
  · by_cases hlast : before.getLast? = some '%'
    · -- The percent sign makes a mark with that of the placeholder, and the letter is left.
      obtain ⟨start, rfl⟩ := List.getLast?_eq_some_iff.mp hlast
      have hfill : fill (start ++ ['%'] ++ "%s".toList ++ after) [value] =
          start ++ ['%'] ++ 's' :: fill after [value] := by
        rw [List.append_assoc, List.append_assoc, fill_literal_append hbefore, List.append_assoc]
        rfl
      rw [hfill, List.append_assoc _ value, List.append_cancel_left_eq]
      constructor
      · intro heq
        obtain ⟨c, more, rfl⟩ := List.exists_cons_of_ne_nil hvalue
        rw [List.cons_append] at heq
        obtain ⟨rfl, hrest⟩ := List.cons.inj heq
        have hafter : IsLiteral after := by
          by_contra hmarked
          have hlength := length_fill_add_two_le hmarked hvalue
          rw [hrest] at hlength
          simp only [List.length_append, List.length_cons] at hlength
          omega
        rw [fill_literal hafter, List.self_eq_append_left] at hrest
        exact ⟨hbefore, hafter, fun _ => by rw [hrest]⟩
      · rintro ⟨_, hafter, hone⟩
        rw [hone hlast, fill_literal hafter]
        rfl
    · have hplaceholder : fill ("%s".toList ++ after) [value] = value ++ fill after [] := rfl
      rw [List.append_assoc, fill_literal_append (hbefore.concat hlast), hplaceholder,
        List.append_assoc, List.append_cancel_left_eq, List.append_cancel_left_eq,
        fill_nil_eq_self_iff]
      exact ⟨fun hafter => ⟨hbefore, hafter, fun h => absurd h hlast⟩, fun h => h.2.1⟩
  · refine iff_of_false (fun heq => ?_) fun h => hbefore h.1
    have hlength := length_fill_placeholder_lt hbefore hvalue after
    rw [heq] at hlength
    simp only [List.length_append] at hlength
    omega

end OutlineWiki.Text
