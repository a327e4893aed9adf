import OutlineWiki.Proofs.Rendering.Brackets
import OutlineWiki.Proofs.Text.Blanks

/-!
The lines of a run of text.

No step that makes markup of a run of text adds or removes a newline. Escaping guards the hash signs
that come first on a line after the first one, and no later step undoes that. Hard breaks give every
line but the last the same end, and no other step touches the blanks at the end of a line.
-/

namespace OutlineWiki.Markup

open OutlineWiki.Text

variable {text line : List Char}

/-- A line ends in two spaces, and no space or tab stands before them. -/
def EndsHard (line : List Char) : Prop :=
  ∃ shown, line = shown ++ [' ', ' '] ∧ ∀ c ∈ shown.getLast?, isIndent c = false

/-- The markup of a run of text has the same lines as the text. -/
structure KeepsLines (options : Options) (text markup : List Char) : Prop where
  newlines : markup.count '\n' = text.count '\n'
  hashes : ∀ line ∈ (splitOn '\n' markup).tail, line.head? ≠ some '#'
  hard : options.preserveBreaks = true → ∀ line ∈ (splitOn '\n' markup).dropLast, EndsHard line
  again : options.preserveBreaks = true → hardBreaks markup = markup
  soft : options.preserveBreaks = false → lineEnds markup = lineEnds text

section Hashes

theorem hasHashLine_true_iff :
    hasHashLine true text = true ↔ ∃ line ∈ splitOn '\n' text, line.head? = some '#' := by
  induction text using line_induction with
  | last line h => simp [hasHashLine_line h, splitOn_of_notMem h]
  | line line rest h ih =>
      rw [splitOn_append_mark h, hasHashLine_append, hasHashLine_line h]
      simp [hasHashLine, ih]

theorem hasHashLine_false_iff :
    hasHashLine false text = true ↔
      ∃ line ∈ (splitOn '\n' text).tail, line.head? = some '#' := by
  induction text using line_induction with
  | last line h => simp [hasHashLine_line h, splitOn_of_notMem h]
  | line line rest h _ =>
      rw [splitOn_append_mark h, hasHashLine_append, hasHashLine_line h, List.tail_cons,
        ← hasHashLine_true_iff]
      simp [hasHashLine]

theorem head?_of_mem_tail_run (options : Options) (text : List Char) :
    ∀ line ∈ (splitOn '\n' (run options text)).tail, line.head? ≠ some '#' := by
  intro line hline hhead
  have hhash := hasHashLine_false_iff.mpr ⟨line, hline, hhead⟩
  rw [run_eq_guardHashes, hasHashLine_guardHashes] at hhash
  cases hhash

end Hashes

section Breaks

theorem dropTrailing_hardLine (line : List Char) :
    dropTrailing isIndent (dropTrailing isIndent line ++ [' ', ' ']) =
      dropTrailing isIndent line := by
  rw [dropTrailing_append]
  exact dropTrailing_eq_self (of_mem_getLast?_dropTrailing line)

theorem newline_notMem_hardLine (h : '\n' ∉ line) :
    '\n' ∉ dropTrailing isIndent line ++ [' ', ' '] := by
  obtain ⟨blanks, hline, _⟩ := exists_trailing isIndent line
  intro hmem
  obtain hmem | hmem := List.mem_append.mp hmem
  · rw [hline] at h
    exact h (List.mem_append_left blanks hmem)
  · revert hmem
    decide

/-- A line with a hard break is a line without the break, and then a newline. -/
theorem hardBreaks_hardLine (h : '\n' ∉ line) (rest : List Char) :
    hardBreaks (line ++ '\n' :: rest) =
      (dropTrailing isIndent line ++ [' ', ' ']) ++ '\n' :: hardBreaks rest := by
  rw [hardBreaks_line_append h]
  simp

theorem endsHard_of_mem_hardBreaks (text : List Char) :
    ∀ line ∈ (splitOn '\n' (hardBreaks text)).dropLast, EndsHard line := by
  induction text using line_induction with
  | last line h =>
      rw [hardBreaks_line h, splitOn_of_notMem h]
      exact fun _ hmem => absurd hmem List.not_mem_nil
  | line line rest h ih =>
      rw [hardBreaks_hardLine h, splitOn_append_mark (newline_notMem_hardLine h),
        List.dropLast_cons_of_ne_nil (splitOn_ne_nil '\n' _), List.forall_mem_cons]
      exact ⟨⟨_, rfl, of_mem_getLast?_dropTrailing line⟩, ih⟩

theorem hardBreaks_hardBreaks (text : List Char) :
    hardBreaks (hardBreaks text) = hardBreaks text := by
  induction text using line_induction with
  | last line h => rw [hardBreaks_line h, hardBreaks_line h]
  | line line rest h ih =>
      rw [hardBreaks_hardLine h, hardBreaks_hardLine (newline_notMem_hardLine h),
        dropTrailing_hardLine, ih]

end Breaks

section Ends

theorem sameBlanks_curlQuotesAfter (previous : Option Char) (text : List Char) :
    SameBlanks text (curlQuotesAfter previous text) := by
  induction text generalizing previous with
  | nil => exact .nil
  | cons c text ih =>
      have hrest := ih (some c)
      cases hc : isBlank c with
      | true =>
          have hplain : curlQuote previous c = c := by
            refine (curlQuote_eq_self_iff previous).mpr ⟨?_, ?_⟩ <;>
              · rintro rfl
                cases hc
          rw [curlQuotesAfter, hplain]
          exact .blank hc hrest
      | false =>
          have hquote := (isBlank_curlQuote previous c).trans hc
          exact .word (isWord_singleton hc) (isWord_singleton hquote) hrest

theorem isBlank_of_isActive {previous next : Option Char} {c : Char}
    (h : isActive previous c next = true) : isBlank c = false := by
  rw [isActive] at h
  split at h
  · next hmark => rcases hmark with rfl | rfl | rfl | rfl <;> rfl
  · split at h
    · next hhash => rw [hhash]; rfl
    · split at h
      · next himage => rw [himage]; rfl
      · cases h

theorem sameBlanks_escapeAfter (previous : Option Char) (text : List Char) :
    SameBlanks text (escapeAfter previous text) := by
  induction text generalizing previous with
  | nil => exact .nil
  | cons c text ih =>
      rw [escapeAfter]
      cases hactive : isActive previous c text.head? with
      | false => exact (ih (some c)).cons c
      | true =>
          have hc : isBlank c = false := isBlank_of_isActive hactive
          have hescaped : IsWord ['\\', c] := by
            refine ⟨List.cons_ne_nil _ _, List.forall_mem_cons.mpr ⟨rfl, ?_⟩⟩
            exact (isWord_singleton hc).solid
          exact .word (isWord_singleton hc) hescaped (ih (some c))

/-- Whatever can be told of a text from its blanks can be told of its markup, as long as no line
break has become hard. -/
theorem softRun_respects {α : Type} {view : List Char → α}
    (h : ∀ {text other : List Char}, SameBlanks text other → view text = view other)
    (options : Options) (text : List Char) : view (softRun options none text) = view text := by
  have hquoted : view (if options.withSmartQuotes then curlQuotesAfter none text else text) =
      view text := by
    split
    · exact (h (sameBlanks_curlQuotesAfter none text)).symm
    · rfl
  have hescaped := (h (sameBlanks_escapeAfter none
    (if options.withSmartQuotes then curlQuotesAfter none text else text))).symm
  have hreplaced : ∀ {pattern replacement : List Char}, pattern ≠ [] → replacement ≠ [] →
      (pattern ++ replacement).any isBlank = false → ∀ text,
        view (replaceAll pattern replacement text) = view text := by
    intro pattern replacement hp hr hsolid text
    rw [List.any_append, Bool.or_eq_false_iff, List.any_eq_false, List.any_eq_false] at hsolid
    exact (h (sameBlanks_replaceAll ⟨hp, by simpa using hsolid.1⟩ ⟨hr, by simpa using hsolid.2⟩
      text)).symm
  simp only [softRun]
  split
  · rw [namedDashes, hreplaced (by decide) (by decide) rfl, hreplaced (by decide) (by decide) rfl,
      hreplaced (by decide) (by decide) rfl, hescaped, hquoted]
  · rw [hescaped, hquoted]

theorem lineEnds_softRun (options : Options) (text : List Char) :
    lineEnds (softRun options none text) = lineEnds text :=
  softRun_respects SameBlanks.lineEnds_eq options text

theorem isBlankLine_softRun (options : Options) (text : List Char) :
    isBlankLine (softRun options none text) = isBlankLine text :=
  softRun_respects SameBlanks.isBlankLine_eq options text

end Ends

theorem count_newline_run (options : Options) (text : List Char) :
    (run options text).count '\n' = text.count '\n' := by
  have hkept : isKept '\n' = true := by decide
  rw [← List.count_filter hkept, filter_run, List.count_filter hkept]

/-- Whatever the options, the markup of a run of text has the lines of the text. Hard breaks make
each line but the last end in just two spaces, and without them the lines end as they did. -/
theorem run_keepsLines (options : Options) (text : List Char) :
    KeepsLines options text (run options text) ∧
      hardBreaks (hardBreaks text) = hardBreaks text := by
  refine ⟨⟨count_newline_run options text, head?_of_mem_tail_run options text, fun hbreaks => ?_,
    fun hbreaks => ?_, fun hbreaks => ?_⟩, hardBreaks_hardBreaks text⟩
  · rw [run_eq, if_pos hbreaks]
    exact endsHard_of_mem_hardBreaks (softRun options none text)
  · rw [run_eq, if_pos hbreaks, hardBreaks_hardBreaks]
  · rw [run_eq, if_neg (ne_true_of_eq_false hbreaks), lineEnds_softRun]

end OutlineWiki.Markup
