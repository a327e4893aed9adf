import OutlineWiki.Proofs.Text.Pieces

/-!
Hash signs that come first on a line.

Whether a text starts a line depends on what stands before it. So the functions here are
told, and tell what follows the text in turn. A guarded text has a backslash before each hash
sign that comes first on a line.
-/

namespace OutlineWiki.Text

/-- Whether what follows a text starts a line, given whether the text does. -/
def startsLineAfter (atStart : Bool) (text : List Char) : Bool :=
  (text.getLast?.map (· == '\n')).getD atStart

/-- Whether a hash sign comes first on a line of the text. -/
def hasHashLine (atStart : Bool) : List Char → Bool
  | [] => false
  | c :: rest => (atStart && c == '#') || hasHashLine (c == '\n') rest

/-- Puts a backslash before each hash sign that comes first on a line. -/
def guardHashes (atStart : Bool) : List Char → List Char
  | [] => []
  | c :: rest => (if atStart && c == '#' then ['\\', c] else [c]) ++ guardHashes (c == '\n') rest

theorem startsLineAfter_cons (atStart : Bool) (c : Char) (text : List Char) :
    startsLineAfter atStart (c :: text) = startsLineAfter (c == '\n') text := by
  rw [startsLineAfter, startsLineAfter, List.getLast?_cons]
  cases text.getLast? <;> rfl

theorem startsLineAfter_append (atStart : Bool) (text more : List Char) :
    startsLineAfter atStart (text ++ more) =
      startsLineAfter (startsLineAfter atStart text) more := by
  induction text generalizing atStart with
  | nil => rfl
  | cons c text ih => rw [List.cons_append, startsLineAfter_cons, startsLineAfter_cons, ih]

theorem guardHashes_cons_of_ne {c : Char} (hc : c ≠ '#') (atStart : Bool) (text : List Char) :
    guardHashes atStart (c :: text) = c :: guardHashes (c == '\n') text := by
  have hbeq : (c == '#') = false := by simpa using hc
  rw [guardHashes, hbeq, Bool.and_false]
  rfl

theorem startsLineAfter_guardHashes (before atStart : Bool) (text : List Char) :
    startsLineAfter before (guardHashes atStart text) = startsLineAfter before text := by
  induction text generalizing before atStart with
  | nil => rfl
  | cons c text ih =>
      rw [guardHashes, startsLineAfter_append, ih, startsLineAfter_cons]
      split <;> rfl

theorem guardHashes_append (atStart : Bool) (text more : List Char) :
    guardHashes atStart (text ++ more) =
      guardHashes atStart text ++ guardHashes (startsLineAfter atStart text) more := by
  induction text generalizing atStart with
  | nil => rfl
  | cons c text ih =>
      rw [List.cons_append, guardHashes, guardHashes, ih, startsLineAfter_cons, List.append_assoc]

theorem hasHashLine_append (atStart : Bool) (text more : List Char) :
    hasHashLine atStart (text ++ more) =
      (hasHashLine atStart text || hasHashLine (startsLineAfter atStart text) more) := by
  induction text generalizing atStart with
  | nil => rfl
  | cons c text ih =>
      rw [List.cons_append, hasHashLine, hasHashLine, ih, startsLineAfter_cons, Bool.or_assoc]

theorem newline_notMem_guardHashes {text : List Char} (h : '\n' ∉ text) (atStart : Bool) :
    '\n' ∉ guardHashes atStart text := by
  induction text generalizing atStart with
  | nil => exact h
  | cons c text ih =>
      obtain ⟨hc, htext⟩ := not_or.mp (mt List.mem_cons.mpr h)
      have hrest := ih htext (c == '\n')
      rw [guardHashes]
      split <;> simp [hc, hrest]

theorem guardHashes_of_notMem {text : List Char} (h : '#' ∉ text) (atStart : Bool) :
    guardHashes atStart text = text := by
  induction text generalizing atStart with
  | nil => rfl
  | cons c text ih =>
      obtain ⟨hc, htext⟩ := not_or.mp (mt List.mem_cons.mpr h)
      rw [guardHashes, ih htext, if_neg]
      · rfl
      · simp [Ne.symm hc]

theorem hasHashLine_of_notMem {text : List Char} (h : '#' ∉ text) (atStart : Bool) :
    hasHashLine atStart text = false := by
  induction text generalizing atStart with
  | nil => rfl
  | cons c text ih =>
      obtain ⟨hc, htext⟩ := not_or.mp (mt List.mem_cons.mpr h)
      rw [hasHashLine, ih htext]
      simp [Ne.symm hc]

/-- A guarded text only has such a line where it was taken for the rest of a line. -/
theorem hasHashLine_guardHashes (before atStart : Bool) (text : List Char) :
    hasHashLine before (guardHashes atStart text) =
      (before && !atStart && text.head? == some '#') := by
  induction text generalizing before atStart with
  | nil => simp [guardHashes, hasHashLine]
  | cons c text ih =>
      rw [guardHashes]
      by_cases hc : c = '#'
      · subst hc
        cases atStart <;> simp [hasHashLine, ih]
      · have hbeq : (c == '#') = false := by simpa using hc
        simp [hasHashLine, ih, hbeq]

theorem guardHashes_of_head? {text : List Char} (h : text.head? ≠ some '#') (atStart : Bool) :
    guardHashes atStart text = guardHashes false text := by
  cases text with
  | nil => rfl
  | cons c text =>
      have hc : (c == '#') = false := by simpa using h
      rw [guardHashes, guardHashes, hc, Bool.and_false, Bool.and_false]

section Pieces

variable {α : Type} (f : α → List Char) (atStart : Bool) {items : List α}

/-- Pieces that are guarded one by one have such a line where a piece starts both the line and
with a hash sign. -/
theorem hasHashLine_flatMap_guardHashes :
    hasHashLine atStart (items.flatMap fun item => guardHashes false (f item)) = true ↔
      ∃ before item after, items = before ++ item :: after ∧
        startsLineAfter atStart (before.flatMap f) = true ∧ (f item).head? = some '#' := by
  induction items generalizing atStart with
  | nil => simp [hasHashLine]
  | cons first rest ih =>
      rw [List.flatMap_cons, hasHashLine_append, hasHashLine_guardHashes,
        startsLineAfter_guardHashes, Bool.or_eq_true, ih]
      constructor
      · rintro (h | ⟨before, item, after, rfl, hstart, hhead⟩)
        · simp only [Bool.not_false, Bool.and_true, Bool.and_eq_true, beq_iff_eq] at h
          exact ⟨[], first, rest, rfl, h.1, h.2⟩
        · refine ⟨first :: before, item, after, rfl, ?_, hhead⟩
          rw [List.flatMap_cons, startsLineAfter_append]
          exact hstart
      · rintro ⟨before, item, after, heq, hstart, hhead⟩
        cases before with
        | nil =>
            cases heq
            exact .inl (by simpa [startsLineAfter, hhead] using hstart)
        | cons other before =>
            cases heq
            rw [List.flatMap_cons, startsLineAfter_append] at hstart
            exact .inr ⟨before, item, after, rfl, hstart, hhead⟩

/-- Pieces may be guarded one by one, unless such a line is left. -/
theorem flatMap_guardHashes_eq_iff :
    (items.flatMap fun item => guardHashes false (f item)) =
        guardHashes atStart (items.flatMap f) ↔
      hasHashLine atStart (items.flatMap fun item => guardHashes false (f item)) = false := by
  constructor
  · intro h
    rw [h, hasHashLine_guardHashes]
    cases atStart <;> rfl
  · induction items generalizing atStart with
    | nil => exact fun _ => rfl
    | cons item items ih =>
        intro h
        rw [List.flatMap_cons, hasHashLine_append, startsLineAfter_guardHashes,
          Bool.or_eq_false_iff, hasHashLine_guardHashes] at h
        rw [List.flatMap_cons, List.flatMap_cons, guardHashes_append, ih _ h.2]
        cases atStart with
        | false => rfl
        | true => rw [guardHashes_of_head? (by simpa using h.1) true]

end Pieces

section Lines

/-- A text is one line, or a line with a newline and more text after it. -/
theorem line_induction {motive : List Char → Prop} (last : ∀ line, '\n' ∉ line → motive line)
    (line : ∀ line rest, '\n' ∉ line → motive rest → motive (line ++ '\n' :: rest))
    (text : List Char) : motive text :=
  piece_induction '\n' last line text

theorem startsLineAfter_line {line : List Char} (h : '\n' ∉ line) (atStart : Bool) :
    startsLineAfter atStart line = (atStart && line.isEmpty) := by
  induction line generalizing atStart with
  | nil => exact (Bool.and_true atStart).symm
  | cons c line ih =>
      obtain ⟨hc, hline⟩ := not_or.mp (mt List.mem_cons.mpr h)
      rw [startsLineAfter_cons, ih hline, beq_false_of_ne (Ne.symm hc)]
      simp

theorem hasHashLine_line {line : List Char} (h : '\n' ∉ line) (atStart : Bool) :
    hasHashLine atStart line = (atStart && line.head? == some '#') := by
  induction line generalizing atStart with
  | nil => simp [hasHashLine]
  | cons c line ih =>
      obtain ⟨hc, hline⟩ := not_or.mp (mt List.mem_cons.mpr h)
      have hbeq : (c == '\n') = false := by simpa using Ne.symm hc
      rw [hasHashLine, ih hline, hbeq]
      simp

theorem head?_dropReturn_eq_some {c : Char} (hc : c ≠ '\r') {line : List Char} :
    (dropReturn line).head? = some c ↔ line.head? = some c := by
  rw [dropReturn]
  split
  · next hlast =>
      obtain ⟨init, rfl⟩ := List.getLast?_eq_some_iff.mp hlast
      rw [List.dropLast_concat]
      cases init <;> simp [hc.symm]
  · exact Iff.rfl

theorem lines_line {line : List Char} (h : '\n' ∉ line) :
    lines line = if line.isEmpty then [] else [line] := by
  rw [lines, splitOn_of_notMem h]
  rfl

theorem lines_line_append {line : List Char} (h : '\n' ∉ line) (rest : List Char) :
    lines (line ++ '\n' :: rest) = dropReturn line :: lines rest := by
  rw [lines, splitOn_append_mark h]
  exact linesOfPieces.eq_3 line (splitOn '\n' rest) (splitOn_ne_nil '\n' rest)

theorem hasHashLine_iff_exists_line (text : List Char) :
    hasHashLine true text = true ↔ ∃ line ∈ lines text, line.head? = some '#' := by
  induction text using line_induction with
  | last line h =>
      rw [hasHashLine_line h, lines_line h]
      cases line <;> simp
  | line line rest h ih =>
      have hhead := @head?_dropReturn_eq_some '#' (by decide) line
      simp only [lines_line_append h, List.mem_cons, exists_eq_or_imp, hhead, ← ih,
        hasHashLine_append, hasHashLine_line h, Bool.or_eq_true, Bool.true_and, beq_iff_eq]
      simp [hasHashLine]

end Lines

end OutlineWiki.Text
