import OutlineWiki.Proofs.Text.Template

/-!
Templates written for literal texts.

A literal text is written into a template by doubling its percent signs, which then take no
placeholder apart and make none, neither within the text nor with what stands beside it. More than
that, every template has literal texts that depend on it alone. Filling puts the arguments between
them, so that no argument is read again.
-/

namespace OutlineWiki.Text

/-- The two marks that stand for the next argument. -/
inductive Placeholder where
  | text
  | number
  deriving DecidableEq, Repr

def Placeholder.letter : Placeholder → Char
  | text => 's'
  | number => 'd'

/-- A literal text as it is written in a template. -/
def written (literal : List Char) : List Char :=
  literal.flatMap fun c => if c = '%' then ['%', '%'] else [c]

/-- The template with a placeholder before each literal text but the first. -/
def templateOf (first : List Char) (rest : List (Placeholder × List Char)) : List Char :=
  written first ++ rest.flatMap fun part => '%' :: part.1.letter :: written part.2

/-- Literal texts with the arguments in order between them, and nothing where there is none. -/
def interleaved (first : List Char) (rest : List (List Char)) (arguments : List (List Char)) :
    List Char :=
  first ++ (rest.mapIdx fun place literal => arguments.getD place [] ++ literal).flatten

variable {arguments : List (List Char)}

theorem interleaved_nil (first : List Char) (arguments : List (List Char)) :
    interleaved first [] arguments = first :=
  List.append_nil first

theorem interleaved_cons (first literal : List Char) (rest arguments : List (List Char)) :
    interleaved first (literal :: rest) arguments =
      first ++ (arguments.headD [] ++ interleaved literal rest arguments.tail) := by
  have htail : (fun place literal => arguments.getD (place + 1) [] ++ literal) =
      fun place literal => arguments.tail.getD place [] ++ literal := by
    funext place literal
    cases arguments <;> rfl
  have hhead : arguments.getD 0 [] = arguments.headD [] := by
    cases arguments <;> rfl
  rw [interleaved, List.mapIdx_cons, List.flatten_cons, hhead, htail, interleaved,
    List.append_assoc]

theorem fill_written_append (literal rest : List Char) :
    fill (written literal ++ rest) arguments = literal ++ fill rest arguments := by
  induction literal with
  | nil => rfl
  | cons c literal ih =>
      rw [written, List.flatMap_cons, List.append_assoc, List.cons_append]
      by_cases hc : c = '%'
      · subst hc
        exact congrArg (List.cons '%') ih
      · rw [if_neg hc]
        exact (fill_cons hc _ _).trans (congrArg (List.cons c) ih)

theorem fill_placeholder (placeholder : Placeholder) (rest : List Char) :
    fill ('%' :: placeholder.letter :: rest) arguments =
      arguments.headD [] ++ fill rest arguments.tail := by
  cases placeholder <;> rfl

theorem fill_templateOf (first : List Char) (rest : List (Placeholder × List Char))
    (arguments : List (List Char)) :
    fill (templateOf first rest) arguments =
      interleaved first (rest.map Prod.snd) arguments := by
  induction rest generalizing first arguments with
  | nil =>
      have hfirst := @fill_written_append arguments first []
      rw [List.map_nil, interleaved_nil]
      exact hfirst.trans (List.append_nil first)
  | cons part rest ih =>
      have hpart : templateOf first (part :: rest) =
          written first ++ '%' :: part.1.letter :: templateOf part.2 rest := by
        simp [templateOf]
      rw [hpart, fill_written_append, fill_placeholder, ih, List.map_cons, interleaved_cons]

theorem interleaved_literals_cons {text rest : List Char} (c : Char)
    (hfill : ∀ arguments, fill text arguments = c :: fill rest arguments)
    (h : ∃ first literals, ∀ arguments,
      fill rest arguments = interleaved first literals arguments) :
    ∃ first literals, ∀ arguments, fill text arguments = interleaved first literals arguments := by
  obtain ⟨first, literals, hrest⟩ := h
  refine ⟨c :: first, literals, fun arguments => ?_⟩
  rw [hfill, hrest]
  rfl

/-- Whatever the arguments are, they come between the same texts. -/
theorem exists_literals (text : List Char) :
    ∃ first literals, ∀ arguments, fill text arguments = interleaved first literals arguments := by
  -- The literals are found along the marks, for which the arguments play no part.
  have hany : ∀ _ : List (List Char), ∃ first literals, ∀ arguments,
      fill text arguments = interleaved first literals arguments := by
    intro start
    fun_induction fill text start with
    | case1 => exact ⟨[], [], fun _ => rfl⟩
    | case2 => exact ⟨['%'], [], fun _ => rfl⟩
    | case3 letter rest start hletter ih =>
        obtain ⟨first, literals, hrest⟩ := ih
        refine ⟨[], first :: literals, fun arguments => ?_⟩
        rw [fill.eq_3, if_pos hletter, hrest, interleaved_cons]
        rfl
    | case4 rest start _ ih => exact interleaved_literals_cons '%' (fun _ => rfl) ih
    | case5 letter rest start hletter hpercent ih =>
        refine interleaved_literals_cons '%' (fun arguments => ?_) ih
        rw [fill.eq_3, if_neg hletter, if_neg hpercent]
    | case6 c rest start hlast hmore ih =>
        refine interleaved_literals_cons c (fill_cons ?_ rest) ih
        rintro rfl
        cases rest with
        | nil => exact hlast rfl rfl
        | cons letter rest => exact hmore letter rest rfl rfl
  exact hany []

/-- A template made of literal texts shows them with the arguments in between. Every template shows
texts of its own, and the arguments in between are not read again. -/
theorem fill_interleaves (first : List Char) (rest : List (Placeholder × List Char))
    (text : List Char) :
    (∀ arguments, fill (templateOf first rest) arguments =
        interleaved first (rest.map Prod.snd) arguments) ∧
      ∃ start literals, ∀ arguments, fill text arguments = interleaved start literals arguments :=
  ⟨fill_templateOf first rest, exists_literals text⟩

example : fill "100%%%s%%%d%".toList ["%s".toList, "d".toList] = "100%%s%d%".toList := by decide

end OutlineWiki.Text
