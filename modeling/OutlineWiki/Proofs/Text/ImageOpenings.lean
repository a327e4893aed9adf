import OutlineWiki.Proofs.Rendering.Brackets

/-!
Where a markup text opens an image.

An image starts with an exclamation mark and a bracket, unless a backslash escapes the mark. A
backslash that is escaped itself escapes nothing, so a reader goes through the text and keeps in mind
what the last character was. The steps that make markup of a run of text never let the run open an
image by itself. But a run may end in a mark, for which the reader has to wait for what follows.
-/

namespace OutlineWiki.Text

/-- How many backslashes stand at the end of a text. -/
def closingBackslashes (text : List Char) : Nat :=
  (text.reverse.takeWhile (· == '\\')).length

/-- An exclamation mark that no backslash escapes ends the text. -/
def EndsInMark (text : List Char) : Prop :=
  ∃ before, text = before ++ ['!'] ∧ closingBackslashes before % 2 = 0

/-- A bracket stands after an exclamation mark that no backslash escapes. -/
def OpensImage (text : List Char) : Prop :=
  ∃ before after, text = before ++ '!' :: '[' :: after ∧ closingBackslashes before % 2 = 0

/-- What a reader knows of the text up to a place. -/
inductive Reading where
  | plain
  /-- The next character is escaped. -/
  | escaped
  /-- A bracket would open an image. -/
  | marked
  /-- An image has been opened. -/
  | opened
  deriving DecidableEq

namespace Reading

/-- The reading after one more character. -/
def next (reading : Reading) (c : Char) : Reading :=
  match reading with
  | opened => opened
  | escaped => plain
  | plain | marked =>
    if c = '\\' then escaped
    else if c = '!' then marked
    else if reading = marked ∧ c = '[' then opened
    else plain

def after (reading : Reading) (text : List Char) : Reading :=
  text.foldl next reading

variable {reading : Reading} {text other : List Char} {c : Char}

theorem after_append (reading : Reading) (text more : List Char) :
    reading.after (text ++ more) = (reading.after text).after more := by
  rw [after, after, after, List.foldl_append]

theorem after_opened (text : List Char) : opened.after text = opened := by
  induction text with
  | nil => rfl
  | cons c text ih => exact ih

end Reading

section Openings

variable {text : List Char} {c : Char}

theorem closingBackslashes_append_singleton :
    closingBackslashes (text ++ [c]) = if c = '\\' then closingBackslashes text + 1 else 0 := by
  rw [closingBackslashes, List.reverse_append, List.reverse_singleton, List.singleton_append,
    List.takeWhile_cons]
  by_cases hc : c = '\\'
  · simp [hc, closingBackslashes]
  · simp [hc]

theorem endsInMark_append_singleton_iff :
    EndsInMark (text ++ [c]) ↔ c = '!' ∧ closingBackslashes text % 2 = 0 := by
  constructor
  · rintro ⟨before, heq, hback⟩
    obtain ⟨rfl, hc⟩ := List.append_inj' heq rfl
    exact ⟨List.singleton_inj.mp hc, hback⟩
  · rintro ⟨rfl, hback⟩
    exact ⟨text, rfl, hback⟩

theorem closingBackslashes_of_endsInMark (h : EndsInMark text) : closingBackslashes text = 0 := by
  obtain ⟨before, rfl, _⟩ := h
  rw [closingBackslashes_append_singleton, if_neg (by decide)]

theorem opensImage_append_singleton_iff :
    OpensImage (text ++ [c]) ↔ OpensImage text ∨ c = '[' ∧ EndsInMark text := by
  constructor
  · rintro ⟨before, after, heq, hback⟩
    rcases List.eq_nil_or_concat after with rfl | ⟨rest, last, rfl⟩
    · have hsplit : text ++ [c] = (before ++ ['!']) ++ ['['] := by rw [heq]; simp
      obtain ⟨rfl, hc⟩ := List.append_inj' hsplit rfl
      exact .inr ⟨List.singleton_inj.mp hc, before, rfl, hback⟩
    · have hsplit : text ++ [c] = (before ++ '!' :: '[' :: rest) ++ [last] := by rw [heq]; simp
      obtain ⟨rfl, _⟩ := List.append_inj' hsplit rfl
      exact .inl ⟨before, rest, rfl, hback⟩
  · rintro (⟨before, after, rfl, hback⟩ | ⟨rfl, before, rfl, hback⟩)
    · exact ⟨before, after ++ [c], by simp, hback⟩
    · exact ⟨before, [], by simp, hback⟩

open Classical in
/-- What a reader knows tells how the text ends, until an image is opened. -/
theorem after_plain (text : List Char) :
    Reading.plain.after text =
      if OpensImage text then .opened
      else if closingBackslashes text % 2 = 1 then .escaped
      else if EndsInMark text then .marked
      else .plain := by
  induction text using List.reverseRecOn with
  | nil =>
      have hopens : ¬ OpensImage [] := fun ⟨before, after, heq, _⟩ => by simp at heq
      have hmark : ¬ EndsInMark [] := fun ⟨before, heq, _⟩ => by simp at heq
      rw [if_neg hopens, if_neg (by decide), if_neg hmark]
      rfl
  | append_singleton text c ih =>
      have hstep : ∀ reading : Reading, reading.after [c] = reading.next c := fun _ => rfl
      rw [Reading.after_append, hstep, ih, opensImage_append_singleton_iff,
        closingBackslashes_append_singleton, endsInMark_append_singleton_iff]
      by_cases hopens : OpensImage text
      · simp [hopens, Reading.next]
      · have hmark : EndsInMark text → closingBackslashes text % 2 = 0 := fun h => by
          rw [closingBackslashes_of_endsInMark h]
        by_cases hback : c = '\\'
        · subst hback
          grind [Reading.next]
        · by_cases hbang : c = '!'
          · subst hbang
            grind [Reading.next]
          · grind [Reading.next]

theorem opensImage_iff_after : OpensImage text ↔ Reading.plain.after text = .opened := by
  rw [after_plain]
  split
  · next h => exact iff_of_true h rfl
  · next h => split <;> [skip; split] <;> exact iff_of_false h Reading.noConfusion

end Openings

/-- Characters that neither escape, nor start nor end the opening of an image. -/
def isCalm (c : Char) : Bool :=
  !(['\\', '!', '['].contains c)

theorem isCalm_iff {c : Char} : isCalm c = true ↔ c ≠ '\\' ∧ c ≠ '!' ∧ c ≠ '[' := by
  simp [isCalm]

theorem isCalm_of_isBlank {c : Char} (h : isBlank c = true) : isCalm c = true := by
  rw [isCalm_iff]
  refine ⟨?_, ?_, ?_⟩ <;>
    · rintro rfl
      exact absurd h (by decide)

theorem isCalm_of_mem_replicate {c d : Char} {count : Nat} (hd : isCalm d = true)
    (hc : c ∈ List.replicate count d) : isCalm c = true :=
  List.eq_of_mem_replicate hc ▸ hd

namespace Reading

variable {reading : Reading} {text other : List Char} {c : Char}

theorem next_of_isCalm (hc : isCalm c = true) (hr : reading ≠ opened) :
    reading.next c = plain := by
  obtain ⟨hback, hbang, hbracket⟩ := isCalm_iff.mp hc
  cases reading with
  | opened => exact absurd rfl hr
  | escaped => rfl
  | plain | marked => simp [next, hback, hbang, hbracket]

/-- After calm characters nothing is kept in mind, except an image. -/
theorem after_of_isCalm (hne : text ≠ []) (h : ∀ c ∈ text, isCalm c = true)
    (hr : reading ≠ opened) : reading.after text = plain := by
  induction text generalizing reading with
  | nil => exact absurd rfl hne
  | cons c text ih =>
      obtain ⟨hc, htext⟩ := List.forall_mem_cons.mp h
      have hnext := next_of_isCalm hc hr
      change (reading.next c).after text = plain
      rw [hnext]
      by_cases hempty : text = []
      · rw [hempty]
        rfl
      · exact ih hempty htext (by decide)

/-- Calm texts may stand for one another. -/
theorem after_eq_of_isCalm (hne : text ≠ []) (h : ∀ c ∈ text, isCalm c = true)
    (hother : other ≠ []) (ho : ∀ c ∈ other, isCalm c = true) (reading : Reading) :
    reading.after text = reading.after other := by
  by_cases hr : reading = opened
  · rw [hr, after_opened, after_opened]
  · rw [after_of_isCalm hne h hr, after_of_isCalm hother ho hr]

/-- Calm characters before a text are as if they were not there, for whom nothing is escaped. -/
theorem after_append_of_isCalm_left (hne : text ≠ []) (h : ∀ c ∈ text, isCalm c = true)
    (hr : reading ≠ opened) (more : List Char) :
    reading.after (text ++ more) = plain.after more := by
  rw [after_append, after_of_isCalm hne h hr]

theorem after_append_of_isCalm_right (hne : text ≠ []) (h : ∀ c ∈ text, isCalm c = true)
    (reading : Reading) (before : List Char) :
    reading.after (before ++ text) =
      if reading.after before = opened then opened else plain := by
  rw [after_append]
  split
  · next hr => rw [hr, after_opened]
  · next hr => exact after_of_isCalm hne h hr

/-- Calm characters, if there are any, open no image. -/
theorem after_append_eq_opened_iff (h : ∀ c ∈ text, isCalm c = true) (reading : Reading)
    (before : List Char) :
    reading.after (before ++ text) = opened ↔ reading.after before = opened := by
  by_cases hne : text = []
  · rw [hne, List.append_nil]
  · rw [after_append_of_isCalm_right hne h]
    split
    · next hr => exact iff_of_true rfl hr
    · next hr => exact iff_of_false (by decide) hr

/-- Blanks around a text play no part in what it opens. -/
theorem after_trim_eq_opened_iff (text : List Char) :
    plain.after (trim text) = opened ↔ plain.after text = opened := by
  have hstart : plain.after (trimStart text) = plain.after text := by
    have hblank : ∀ c ∈ text.takeWhile isBlank, isCalm c = true :=
      fun c hc => isCalm_of_isBlank (List.mem_takeWhile_imp hc)
    have hsplit := List.takeWhile_append_dropWhile (p := isBlank) (l := text)
    by_cases hnone : text.takeWhile isBlank = []
    · rw [hnone, List.nil_append] at hsplit
      rw [trimStart, hsplit]
    · conv_rhs => rw [← hsplit]
      rw [after_append_of_isCalm_left hnone hblank (by decide), trimStart]
  obtain ⟨run, hrun, hblank⟩ := exists_trailing isBlank (trimStart text)
  have hcalm : ∀ c ∈ run, isCalm c = true := fun c hc => isCalm_of_isBlank (hblank c hc)
  rw [← hstart]
  conv_rhs => rw [hrun]
  exact (after_append_eq_opened_iff hcalm plain _).symm

theorem after_replaceAll {pattern replacement : List Char} (hne : pattern ≠ [])
    (hp : ∀ c ∈ pattern, isCalm c = true) (hreplacement : replacement ≠ [])
    (hr : ∀ c ∈ replacement, isCalm c = true) (reading : Reading) (text : List Char) :
    reading.after (replaceAll pattern replacement text) = reading.after text := by
  induction text using replace_induction hne generalizing reading with
  | nil => rfl
  | cons c text hdrop ih =>
      rw [replaceAll_cons hdrop]
      exact ih (reading.next c)
  | found rest ih =>
      rw [replaceAll_pattern_append hne, after_append, after_append, ih,
        after_eq_of_isCalm hreplacement hr hne hp]

end Reading

end OutlineWiki.Text

namespace OutlineWiki.Markup

open OutlineWiki.Text

variable {reading : Reading} {text : List Char}

theorem after_namedDashes (reading : Reading) (text : List Char) :
    reading.after (namedDashes text) = reading.after text := by
  have hreplace : ∀ {pattern replacement : List Char}, pattern ≠ [] → replacement ≠ [] →
      (pattern ++ replacement).all isCalm = true →
        ∀ text, reading.after (replaceAll pattern replacement text) = reading.after text := by
    intro pattern replacement hp hr hcalm text
    rw [List.all_eq_true, List.forall_mem_append] at hcalm
    exact Reading.after_replaceAll hp hcalm.1 hr hcalm.2 reading text
  rw [namedDashes, hreplace (by decide) (by decide) rfl, hreplace (by decide) (by decide) rfl,
    hreplace (by decide) (by decide) rfl]

theorem after_hardBreaks (reading : Reading) (text : List Char) :
    reading.after (hardBreaks text) = reading.after text := by
  induction text using line_induction generalizing reading with
  | last line h => rw [hardBreaks_line h]
  | line line rest h ih =>
      obtain ⟨blanks, hline, hblanks⟩ := exists_trailing isIndent line
      have hbreak : ∀ reading : Reading,
          reading.after [' ', ' ', '\n'] = reading.after (blanks ++ ['\n']) := by
        refine Reading.after_eq_of_isCalm (by simp) (List.all_eq_true.mp rfl) (by simp)
          fun c hc => ?_
        obtain hc | hc := List.mem_append.mp hc
        · exact isCalm_of_isBlank (isBlank_of_isIndent (hblanks c hc))
        · obtain rfl := List.mem_singleton.mp hc
          rfl
      have hsplit : line ++ '\n' :: rest =
          dropTrailing isIndent line ++ (blanks ++ ['\n']) ++ rest := by
        conv_lhs => rw [hline]
        simp
      rw [hardBreaks_line_append h, hsplit, Reading.after_append, Reading.after_append,
        Reading.after_append, Reading.after_append, ih, hbreak]

/-- The reading after the markup of a text that is read with nothing escaped before it. -/
def readingAfter (reading : Reading) (text : List Char) : Reading :=
  if reading = .marked ∧ text.head? = some '[' then .opened
  else if text = [] then reading
  else if text.getLast? = some '!' then .marked
  else .plain

theorem curlQuote_eq_iff {d : Char} (hd : d = '!' ∨ d = '[') (previous : Option Char) (c : Char) :
    curlQuote previous c = d ↔ c = d := by
  rw [curlQuote]
  obtain rfl | rfl := hd <;> grind

theorem readingAfter_curlQuotesAfter (reading : Reading) (previous : Option Char)
    (text : List Char) :
    readingAfter reading (curlQuotesAfter previous text) = readingAfter reading text := by
  have hhead : (curlQuotesAfter previous text).head? = some '[' ↔ text.head? = some '[' := by
    cases text with
    | nil => rfl
    | cons c text => simpa [curlQuotesAfter] using curlQuote_eq_iff (.inr rfl) previous c
  have hnil : curlQuotesAfter previous text = [] ↔ text = [] := by
    cases text <;> simp [curlQuotesAfter]
  have hlast : (curlQuotesAfter previous text).getLast? = some '!' ↔
      text.getLast? = some '!' := by
    clear hhead hnil
    induction text generalizing previous with
    | nil => rfl
    | cons c text ih =>
        cases text with
        | nil => simpa [curlQuotesAfter] using curlQuote_eq_iff (.inl rfl) previous c
        | cons d text => simpa [curlQuotesAfter, List.getLast?_cons_cons] using ih (some c)
  simp only [readingAfter, hhead, hnil, hlast]

theorem readingAfter_cons (reading : Reading) (c : Char) (text : List Char) :
    readingAfter reading (c :: text) =
      if reading = .marked ∧ c = '[' then .opened
      else if text = [] then (if c = '!' then .marked else .plain)
      else if text.getLast? = some '!' then .marked
      else .plain := by
  cases text <;> simp [readingAfter, List.getLast?_cons_cons]

/-- Escaping keeps a text from opening an image, unless its first character does so. -/
theorem after_escapeAfter (hr : reading = .plain ∨ reading = .marked) (previous : Option Char)
    (text : List Char) :
    reading.after (escapeAfter previous text) = readingAfter reading text := by
  induction text generalizing reading previous with
  | nil => simp [escapeAfter, readingAfter, Reading.after]
  | cons c text ih =>
      rw [escapeAfter, Reading.after_append, readingAfter_cons]
      by_cases hactive : isActive previous c text.head? = true
      · have hpair : reading.after ['\\', c] = .plain := by
          obtain rfl | rfl := hr <;> rfl
        have hc : c ≠ '[' ∧ (c = '!' → text.head? = some '[') := by
          constructor
          · rintro rfl
            simp [isActive] at hactive
          · rintro rfl
            simpa [isActive] using hactive
        rw [if_pos hactive, hpair, ih (.inl rfl), readingAfter]
        grind
      · have hc : c ≠ '\\' ∧ (c = '!' → text.head? ≠ some '[') := by
          constructor
          · rintro rfl
            simp [isActive] at hactive
          · rintro rfl
            simpa [isActive] using hactive
        have hstep : reading.after [c] =
            if c = '!' then .marked
            else if reading = .marked ∧ c = '[' then .opened
            else .plain := by
          change reading.next c = _
          obtain rfl | rfl := hr <;> simp [Reading.next, hc.1]
        rw [if_neg hactive, hstep]
        by_cases hbang : c = '!'
        · rw [if_pos hbang, ih (.inr rfl), readingAfter]
          grind
        · rw [if_neg hbang]
          split
          · exact Reading.after_opened _
          · rw [ih (.inl rfl), readingAfter]
            grind

theorem after_run (options : Options) (hr : reading = .plain ∨ reading = .marked)
    (text : List Char) : reading.after (run options text) = readingAfter reading text := by
  have hescaped : reading.after
      (escape (if options.withSmartQuotes then curlQuotes text else text)) =
        readingAfter reading text := by
    rw [escape, after_escapeAfter hr]
    split
    · exact readingAfter_curlQuotesAfter reading none text
    · rfl
  simp only [run]
  split <;> split <;> simp only [after_hardBreaks, after_namedDashes, hescaped]

end OutlineWiki.Markup
