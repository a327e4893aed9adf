import OutlineWiki.Proofs.Reference.CodeLinks
import OutlineWiki.Proofs.Rendering.Paragraph
import OutlineWiki.Proofs.Text.Marks
import OutlineWiki.Proofs.Text.Replacement

/-!
Brackets in a run of text.

None of the steps that make markup of running text minds round brackets or goes across one. So
the markup of a text between brackets does not depend on what stands around them. It is the
text itself exactly when no step finds anything to do in it.
-/

namespace OutlineWiki.Markup

open OutlineWiki.Text
open Survey (bracketed)

/-- The markup of a run of text after a given character, before line breaks become hard. -/
def softRun (options : Options) (previous : Option Char) (text : List Char) : List Char :=
  let quoted := if options.withSmartQuotes then curlQuotesAfter previous text else text
  let escaped := escapeAfter previous quoted
  if options.withSpecialStrings then namedDashes escaped else escaped

theorem run_eq (options : Options) (text : List Char) :
    run options text =
      if options.preserveBreaks then hardBreaks (softRun options none text)
      else softRun options none text :=
  rfl

section Brackets

variable {bracket : Char} (hb : bracket = '(' ∨ bracket = ')')
include hb

theorem curlQuotesAfter_append_bracket (previous : Option Char) (before after : List Char) :
    curlQuotesAfter previous (before ++ bracket :: after) =
      curlQuotesAfter previous before ++ bracket :: curlQuotesAfter (some bracket) after := by
  have hplain : ∀ previous, curlQuote previous bracket = bracket := by
    obtain rfl | rfl := hb <;> exact fun _ => rfl
  induction before generalizing previous with
  | nil => exact congrArg (List.cons · _) (hplain previous)
  | cons c before ih => exact congrArg (List.cons _) (ih (some c))

theorem escapeAfter_append_bracket (previous : Option Char) (before after : List Char) :
    escapeAfter previous (before ++ bracket :: after) =
      escapeAfter previous before ++ bracket :: escapeAfter (some bracket) after := by
  have hplain : ∀ previous next, isActive previous bracket next = false := by
    obtain rfl | rfl := hb <;> exact fun _ _ => rfl
  have hnext : ∀ previous c, isActive previous c (some bracket) = isActive previous c none := by
    obtain rfl | rfl := hb <;> exact fun _ _ => rfl
  induction before generalizing previous with
  | nil =>
      rw [List.nil_append, escapeAfter.eq_2, hplain]
      rfl
  | cons c before ih =>
      have hhead : isActive previous c (before ++ bracket :: after).head? =
          isActive previous c before.head? := by
        cases before with
        | nil => exact hnext previous c
        | cons d before => rfl
      rw [List.cons_append, escapeAfter, escapeAfter, ih, hhead, List.append_assoc]

theorem namedDashes_append_bracket (before after : List Char) :
    namedDashes (before ++ bracket :: after) =
      namedDashes before ++ bracket :: namedDashes after := by
  have hnot : bracket ∉ "---".toList ∧ bracket ∉ "--".toList ∧ bracket ∉ "...".toList := by
    obtain rfl | rfl := hb <;> decide
  simp only [namedDashes]
  rw [replaceAll_append_cons (by decide) hnot.1, replaceAll_append_cons (by decide) hnot.2.1,
    replaceAll_append_cons (by decide) hnot.2.2]

theorem softRun_append_bracket (options : Options) (previous : Option Char)
    (before after : List Char) :
    softRun options previous (before ++ bracket :: after) =
      softRun options previous before ++ bracket :: softRun options (some bracket) after := by
  simp only [softRun]
  split <;> split <;>
    simp only [curlQuotesAfter_append_bracket hb, escapeAfter_append_bracket hb,
      namedDashes_append_bracket hb]

end Brackets

/-- Wherever brackets stand in a text, what is between them has the same markup. -/
theorem infix_softRun {options : Options} {text description : List Char}
    (h : bracketed text <:+: description) (previous : Option Char) :
    bracketed (softRun options (some '(') text) <:+: softRun options previous description := by
  obtain ⟨before, after, rfl⟩ := h
  refine ⟨softRun options previous before, softRun options (some ')') after, ?_⟩
  have hparts : before ++ bracketed text ++ after = before ++ '(' :: (text ++ ')' :: after) := by
    simp [bracketed]
  rw [hparts, softRun_append_bracket (.inl rfl), softRun_append_bracket (.inr rfl)]
  simp [bracketed]

theorem softRun_bracketed (options : Options) (text : List Char) :
    softRun options none (bracketed text) = bracketed (softRun options (some '(') text) := by
  have hparts : bracketed text = [] ++ '(' :: (text ++ ')' :: []) := rfl
  have hnil : ∀ previous, softRun options previous [] = [] := by
    intro previous
    simp only [softRun]
    split <;> split <;> rfl
  rw [hparts, softRun_append_bracket (.inl rfl), softRun_append_bracket (.inr rfl), hnil, hnil]
  rfl

/-- Characters that are active wherever they stand. -/
def activeMarks : List Char :=
  ['\x60', '*', '_', '\\']

/-- No character of the text is active within a line. -/
structure IsInert (text : List Char) : Prop where
  marks : ∀ c ∈ text, c ∉ activeMarks
  images : ¬ ['!', '['] <:+: text

/-- No step finds anything to do in the text, when it stands within a line. -/
structure ShowsAsIs (options : Options) (text : List Char) : Prop extends IsInert text where
  quotes : options.withSmartQuotes = true → '"' ∉ text ∧ '\'' ∉ text
  dashes : options.withSpecialStrings = true →
    ¬ "--".toList <:+: text ∧ ¬ "...".toList <:+: text

section Quotes

variable (previous : Option Char) (text : List Char)

theorem curlQuote_eq_self_iff {c : Char} :
    curlQuote previous c = c ↔ c ≠ '"' ∧ c ≠ '\'' := by
  rw [curlQuote]
  generalize previous.all opensQuote = opening
  by_cases hdouble : c = '"'
  · cases opening <;> simp [hdouble]
  · by_cases hsingle : c = '\''
    · cases opening <;> simp [hsingle]
    · simp [hdouble, hsingle]

theorem isBlank_curlQuote (c : Char) : isBlank (curlQuote previous c) = isBlank c := by
  rw [curlQuote]
  generalize previous.all opensQuote = opening
  by_cases hdouble : c = '"'
  · cases opening <;> simp [hdouble] <;> decide
  · by_cases hsingle : c = '\''
    · cases opening <;> simp [hsingle] <;> decide
    · simp [hdouble, hsingle]

theorem curlQuotesAfter_eq_self_iff :
    curlQuotesAfter previous text = text ↔ '"' ∉ text ∧ '\'' ∉ text := by
  induction text generalizing previous with
  | nil => simp [curlQuotesAfter]
  | cons c text ih =>
      rw [curlQuotesAfter, List.cons.injEq, curlQuote_eq_self_iff, ih, List.mem_cons,
        List.mem_cons]
      tauto

theorem length_curlQuotesAfter : (curlQuotesAfter previous text).length = text.length := by
  induction text generalizing previous with
  | nil => rfl
  | cons c text ih => exact congrArg (· + 1) (ih (some c))

end Quotes

section Escapes

variable {previous : Option Char} {text : List Char}

theorem isInert_cons_iff {c : Char} :
    IsInert (c :: text) ↔
      c ∉ activeMarks ∧ (c = '!' → text.head? ≠ some '[') ∧ IsInert text := by
  constructor
  · rintro ⟨hmarks, himages⟩
    obtain ⟨hc, hrest⟩ := List.forall_mem_cons.mp hmarks
    refine ⟨hc, ?_, hrest, fun hin => himages (List.infix_cons hin)⟩
    rintro rfl hhead
    obtain ⟨rest, rfl⟩ := List.head?_eq_some_iff.mp hhead
    exact himages ⟨[], rest, rfl⟩
  · rintro ⟨hc, himage, hmarks, himages⟩
    refine ⟨List.forall_mem_cons.mpr ⟨hc, hmarks⟩, fun hin => ?_⟩
    obtain ⟨rest, hrest⟩ | hin := List.infix_cons_iff.mp hin
    · cases hrest
      exact himage rfl rfl
    · exact himages hin

theorem isActive_of_inert {c : Char} {next : Option Char} (hc : c ∉ activeMarks)
    (hi : c = '!' → next ≠ some '[') (hp : previous ≠ some '\n') :
    isActive previous c next = false := by
  simp only [activeMarks, List.mem_cons, List.not_mem_nil, or_false] at hc
  rw [isActive, if_neg hc]
  split
  · exact beq_eq_false_iff_ne.mpr hp
  · split
    · next himage => exact beq_eq_false_iff_ne.mpr (hi himage)
    · rfl

theorem inert_of_isActive {c : Char} {next : Option Char}
    (h : isActive previous c next = false) : c ∉ activeMarks ∧ (c = '!' → next ≠ some '[') := by
  rw [isActive] at h
  split at h
  · cases h
  · next hc =>
      refine ⟨by simpa [activeMarks] using hc, ?_⟩
      rintro rfl
      simpa using h

theorem escapeAfter_of_isInert (h : IsInert text) (hn : '\n' ∉ text)
    (hp : previous ≠ some '\n') : escapeAfter previous text = text := by
  induction text generalizing previous with
  | nil => rfl
  | cons c text ih =>
      obtain ⟨hc, himage, hrest⟩ := isInert_cons_iff.mp h
      obtain ⟨hcn, hn⟩ := not_or.mp (mt List.mem_cons.mpr hn)
      rw [escapeAfter, isActive_of_inert hc himage hp,
        ih hrest hn fun heq => hcn (Option.some.inj heq).symm]
      rfl

theorem length_le_length_escapeAfter (previous : Option Char) (text : List Char) :
    text.length ≤ (escapeAfter previous text).length := by
  induction text generalizing previous with
  | nil => exact Nat.le_refl _
  | cons c text ih =>
      have hrest := ih (some c)
      rw [escapeAfter, List.length_append, List.length_cons]
      split <;> simp only [List.length_cons, List.length_nil] <;> omega

/-- Every escape makes a text longer. -/
theorem isInert_of_length_escapeAfter
    (h : (escapeAfter previous text).length ≤ text.length) : IsInert text := by
  induction text generalizing previous with
  | nil => exact ⟨fun c hc => absurd hc List.not_mem_nil, fun hin => by
      simpa using List.infix_nil.mp hin⟩
  | cons c text ih =>
      have hrest := length_le_length_escapeAfter (some c) text
      rw [escapeAfter, List.length_append, List.length_cons] at h
      cases hactive : isActive previous c text.head? with
      | true =>
          rw [hactive, if_pos rfl, List.length_cons, List.length_singleton] at h
          omega
      | false =>
          rw [hactive, if_neg Bool.false_ne_true, List.length_singleton] at h
          obtain ⟨hc, himage⟩ := inert_of_isActive hactive
          have hshort : (escapeAfter (some c) text).length ≤ text.length := by omega
          exact isInert_cons_iff.mpr ⟨hc, himage, ih hshort⟩

end Escapes

section Dashes

variable {text : List Char}

theorem namedDashes_eq_self (hd : ¬ "--".toList <:+: text) (hdots : ¬ "...".toList <:+: text) :
    namedDashes text = text := by
  have hlong : ¬ "---".toList <:+: text := fun hin => hd (List.IsInfix.trans ⟨[], ['-'], rfl⟩ hin)
  rw [namedDashes, replaceAll_eq_self hlong, replaceAll_eq_self hd,
    replaceAll_eq_self hdots]

/-- Every entity is longer than what it stands for. -/
theorem length_namedDashes (text : List Char) :
    text.length ≤ (namedDashes text).length ∧
      ((namedDashes text).length ≤ text.length →
        ¬ "--".toList <:+: text ∧ ¬ "...".toList <:+: text) := by
  have hlong : ∀ text : List Char, text.length ≤
      (replaceAll "---".toList "&mdash;".toList text).length :=
    length_le_length_replaceAll (by decide) (by decide)
  have hshort : ∀ text : List Char, text.length ≤
      (replaceAll "--".toList "&ndash;".toList text).length :=
    length_le_length_replaceAll (by decide) (by decide)
  have hdots : ∀ text : List Char, text.length ≤
      (replaceAll "...".toList "&hellip;".toList text).length :=
    length_le_length_replaceAll (by decide) (by decide)
  rw [namedDashes]
  refine ⟨(hlong _).trans ((hshort _).trans (hdots _)), fun h => ?_⟩
  have hnoLong : ¬ "---".toList <:+: text :=
    not_infix_of_length_replaceAll (by decide) (by decide) ((hshort _).trans ((hdots _).trans h))
  rw [replaceAll_eq_self hnoLong] at h
  have hnoShort : ¬ "--".toList <:+: text :=
    not_infix_of_length_replaceAll (by decide) (by decide) ((hdots _).trans h)
  rw [replaceAll_eq_self hnoShort] at h
  exact ⟨hnoShort, not_infix_of_length_replaceAll (by decide) (by decide) h⟩

end Dashes

/-- Characters that every step keeps where they are, and never puts in. -/
def isKept (c : Char) : Bool :=
  ['(', ')', '%', '\n'].contains c

section Kept

theorem filter_isKept_of_isIndent {text : List Char} (h : ∀ c ∈ text, isIndent c = true) :
    text.filter isKept = [] := by
  refine List.filter_eq_nil_iff.mpr fun c hc => ?_
  have hindent := h c hc
  rw [isIndent, Bool.or_eq_true, beq_iff_eq, beq_iff_eq] at hindent
  obtain rfl | rfl := hindent <;> decide

theorem filter_curlQuotesAfter (previous : Option Char) (text : List Char) :
    (curlQuotesAfter previous text).filter isKept = text.filter isKept := by
  induction text generalizing previous with
  | nil => rfl
  | cons c text ih =>
      rw [curlQuotesAfter, List.filter_cons, List.filter_cons, ih]
      by_cases hc : c = '"' ∨ c = '\''
      · have hquote : isKept (curlQuote previous c) = false ∧ isKept c = false := by
          rw [curlQuote]
          generalize previous.all opensQuote = opening
          obtain rfl | rfl := hc <;> cases opening <;> decide
        rw [hquote.1, hquote.2]
        rfl
      · rw [(curlQuote_eq_self_iff previous).mpr (not_or.mp hc)]

theorem filter_escapeAfter (previous : Option Char) (text : List Char) :
    (escapeAfter previous text).filter isKept = text.filter isKept := by
  have hback : isKept '\\' = false := by decide
  induction text generalizing previous with
  | nil => rfl
  | cons c text ih =>
      rw [escapeAfter, List.filter_append, ih]
      split
      · rw [List.filter_cons, hback]
        exact (List.filter_append _ _).symm
      · exact (List.filter_append _ _).symm

theorem filter_namedDashes (text : List Char) :
    (namedDashes text).filter isKept = text.filter isKept := by
  rw [namedDashes, filter_replaceAll, filter_replaceAll, filter_replaceAll]
  all_goals simp [isKept]

theorem filter_softRun (options : Options) (previous : Option Char) (text : List Char) :
    (softRun options previous text).filter isKept = text.filter isKept := by
  simp only [softRun]
  split <;> split <;> simp only [filter_namedDashes, filter_escapeAfter, filter_curlQuotesAfter]

theorem filter_hardBreaks (text : List Char) :
    (hardBreaks text).filter isKept = text.filter isKept := by
  have hspaces : [' ', ' ', '\n'].filter isKept = ['\n'].filter isKept := by decide
  induction text using line_induction with
  | last line h => rw [hardBreaks_line h]
  | line line rest h ih =>
      obtain ⟨blanks, hline, hblanks⟩ := exists_trailing isIndent line
      have hkept : (dropTrailing isIndent line).filter isKept = line.filter isKept := by
        conv_rhs => rw [hline]
        rw [List.filter_append, filter_isKept_of_isIndent hblanks, List.append_nil]
      rw [hardBreaks_line_append h, List.filter_append, List.filter_append, hkept, hspaces, ih,
        List.filter_append, List.filter_cons, List.append_assoc]
      rfl

theorem filter_run (options : Options) (text : List Char) :
    (run options text).filter isKept = text.filter isKept := by
  rw [run_eq]
  split
  · rw [filter_hardBreaks, filter_softRun]
  · exact filter_softRun options none text

theorem mem_iff_of_filter_eq {text other : List Char} {c : Char}
    (h : text.filter isKept = other.filter isKept) (hc : isKept c = true) :
    c ∈ text ↔ c ∈ other := by
  have hmem : ∀ list : List Char, c ∈ list ↔ c ∈ list.filter isKept := fun list => by
    rw [List.mem_filter, hc]
    exact (and_iff_left rfl).symm
  rw [hmem, h, ← hmem]

end Kept

/-- Text within a line is shown as it is exactly when no step finds anything to do in it. -/
theorem softRun_eq_self_iff {options : Options} {previous : Option Char} {text : List Char}
    (hn : '\n' ∉ text) (hp : previous ≠ some '\n') :
    softRun options previous text = text ↔ ShowsAsIs options text := by
  constructor
  · intro heq
    simp only [softRun] at heq
    generalize hquoted : (if options.withSmartQuotes then curlQuotesAfter previous text else text) =
      quoted at heq
    have hlength : quoted.length = text.length := by
      rw [← hquoted]
      split
      · exact length_curlQuotesAfter previous text
      · rfl
    have hnewline : '\n' ∉ quoted := by
      rw [← hquoted]
      split
      · rwa [mem_iff_of_filter_eq (filter_curlQuotesAfter previous text) (by decide)]
      · exact hn
    have hescaped : (escapeAfter previous quoted).length ≤ text.length := by
      conv_rhs => rw [← heq]
      split
      · exact (length_namedDashes _).1
      · exact Nat.le_refl _
    have hinert : IsInert quoted := isInert_of_length_escapeAfter (hlength ▸ hescaped)
    rw [escapeAfter_of_isInert hinert hnewline hp] at heq
    have hdashes : options.withSpecialStrings = true →
        ¬ "--".toList <:+: quoted ∧ ¬ "...".toList <:+: quoted := by
      intro hspecial
      rw [if_pos hspecial] at heq
      exact (length_namedDashes quoted).2 (by rw [heq, hlength])
    have hself : quoted = text := by
      split at heq
      · next hspecial =>
          obtain ⟨hd, hdots⟩ := hdashes hspecial
          rwa [namedDashes_eq_self hd hdots] at heq
      · exact heq
    subst hself
    refine ⟨hinert, fun hsmart => ?_, hdashes⟩
    rw [if_pos hsmart] at hquoted
    exact (curlQuotesAfter_eq_self_iff previous quoted).mp hquoted
  · rintro ⟨hinert, hquotes, hdashes⟩
    have hquoted : (if options.withSmartQuotes then curlQuotesAfter previous text else text) =
        text := by
      split
      · next hsmart => exact (curlQuotesAfter_eq_self_iff previous text).mpr (hquotes hsmart)
      · rfl
    simp only [softRun, hquoted, escapeAfter_of_isInert hinert hn hp]
    split
    · next hspecial =>
        obtain ⟨hd, hdots⟩ := hdashes hspecial
        exact namedDashes_eq_self hd hdots
    · rfl

section Mentions

variable {options : Options} {label : List Char}

theorem infix_joinHard {mark : List Char} (hm : IsMark mark) {pieces : List (List Char)}
    {piece : List Char} (hp : piece ∈ pieces) (h : mark <:+: piece) :
    mark <:+: joinHard pieces := by
  induction pieces with
  | nil => cases hp
  | cons line rest ih =>
      cases rest with
      | nil => rwa [joinHard, ← List.mem_singleton.mp hp]
      | cons next rest =>
          rw [joinHard.eq_3 _ _ (List.cons_ne_nil next rest)]
          obtain rfl | hrest := List.mem_cons.mp hp
          · have hsolid : ∀ c ∈ mark, isIndent c = false := fun c hc =>
              Bool.eq_false_iff.mpr fun hindent =>
                absurd (isBlank_of_isIndent hindent) (by rw [hm.solid c hc]; exact Bool.false_ne_true)
            have hin := infix_dropTrailing hm.ne_nil hsolid h
            exact List.infix_append_of_infix_left (List.infix_append_of_infix_left hin)
          · exact List.infix_append_of_infix_right (ih hrest)

theorem infix_hardBreaks {mark text : List Char} (hm : IsMark mark) (h : mark <:+: text) :
    mark <:+: hardBreaks text := by
  obtain ⟨piece, hpiece, hin⟩ := hm.exists_piece h
  exact infix_joinHard hm hpiece hin

/-- Of two texts with the same brackets, one only stands in the other between brackets if they
are the same. -/
theorem eq_of_infix_bracketed {text other : List Char}
    (hkept : other.filter isKept = text.filter isKept) (h : bracketed text <:+: bracketed other) :
    other = text := by
  obtain ⟨before, after, heq⟩ := h
  have hnone : before.filter isKept = [] ∧ after.filter isKept = [] := by
    have hfilter : ∀ text : List Char,
        (bracketed text).filter isKept = '(' :: text.filter isKept ++ [')'] := by
      intro text
      rw [bracketed, List.filter_append]
      rfl
    have hlength := congrArg (fun text => (text.filter isKept).length) heq
    simp only [List.filter_append, hfilter, hkept, List.length_append] at hlength
    exact ⟨List.eq_nil_of_length_eq_zero (by omega), List.eq_nil_of_length_eq_zero (by omega)⟩
  have hbefore : before = [] := by
    cases before with
    | nil => rfl
    | cons c before =>
        obtain ⟨rfl, -⟩ := List.cons.inj heq
        exact absurd hnone.1 (List.cons_ne_nil _ _)
  have hafter : after = [] := by
    obtain rfl | ⟨rest, c, rfl⟩ := after.eq_nil_or_concat'
    · rfl
    · rw [← List.append_assoc, bracketed, bracketed] at heq
      obtain rfl := List.singleton_inj.mp (List.append_inj' heq rfl).2
      rw [List.filter_append] at hnone
      exact absurd (List.append_eq_nil_iff.mp hnone.2).2 (List.cons_ne_nil _ _)
  rw [hbefore, hafter, List.nil_append, List.append_nil] at heq
  exact (List.append_cancel_right (List.cons.inj heq).2).symm

/-- A label between brackets is found in its own markup exactly when it is shown as it is. -/
theorem infix_run_bracketed_iff (hn : '\n' ∉ label) :
    bracketed label <:+: run options (bracketed label) ↔ ShowsAsIs options label := by
  have hopen : some '(' ≠ some '\n' := by decide
  have hkept := filter_softRun options (some '(') label
  have hline : '\n' ∉ bracketed (softRun options (some '(') label) := by
    simpa [bracketed] using mt (mem_iff_of_filter_eq hkept (by decide)).mp hn
  have hrun : run options (bracketed label) = bracketed (softRun options (some '(') label) := by
    rw [run_eq, softRun_bracketed, hardBreaks_line hline, ite_self]
  rw [hrun, ← softRun_eq_self_iff hn hopen]
  exact ⟨eq_of_infix_bracketed hkept, fun h => by rw [h]⟩

/-- A label that is shown as it is can be found in the markup of all texts that mention it. -/
theorem ShowsAsIs.infix_run (h : ShowsAsIs options label) (hm : IsMark (bracketed label))
    {description : List Char} (hin : bracketed label <:+: description) :
    bracketed label <:+: run options description := by
  have hn : '\n' ∉ label := fun hmem =>
    hm.newline_notMem (List.mem_cons_of_mem _ (List.mem_append_left _ hmem))
  have hsoft := @infix_softRun options _ _ hin none
  rw [(softRun_eq_self_iff hn (by decide)).mpr h] at hsoft
  rw [run_eq]
  split
  · exact infix_hardBreaks hm hsoft
  · exact hsoft

end Mentions

end OutlineWiki.Markup
