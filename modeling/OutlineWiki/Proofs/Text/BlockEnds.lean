import OutlineWiki.Proofs.Text.LineEnds

/-!
What is dropped at the end of a block.

A line end is a newline with any spaces and tabs after it. Line ends are taken off a text one after
the other, each time looking behind the spaces and tabs that the text ends in. This comes to a stop,
and what it leaves is the text without its longest end that is made of line ends. Spaces and tabs
right after a text belong to no line end, so they stay.
-/

namespace OutlineWiki.Markup

open OutlineWiki.Text

/-- Newlines, each with any spaces and tabs after it. -/
inductive AreLineEnds : List Char → Prop where
  | nil : AreLineEnds []
  | cons {blanks ends : List Char} (indent : ∀ c ∈ blanks, isIndent c = true)
      (more : AreLineEnds ends) : AreLineEnds ('\n' :: (blanks ++ ends))

/-- The text without its last line end, if it ends in one. -/
def dropLineEnd? (text : List Char) : Option (List Char) :=
  let shown := dropTrailing isIndent text
  if shown.getLast? = some '\n' then some shown.dropLast else none

/-- Taking off one line end after the other stops at the second text. -/
inductive DropsTo : List Char → List Char → Prop where
  | stop {text : List Char} (done : dropLineEnd? text = none) : DropsTo text text
  | again {text rest body : List Char} (step : dropLineEnd? text = some rest)
      (more : DropsTo rest body) : DropsTo text body

/-- The body is what is left of the text without its line ends. -/
structure IsBody (text body : List Char) : Prop where
  reached : ∀ other, DropsTo text other ↔ other = body
  longest : ∃ ends, text = body ++ ends ∧ AreLineEnds ends ∧
    ∀ other, AreLineEnds other → other <:+ text → other <:+ ends
  ended : (dropTrailing isIndent body).getLast? ≠ some '\n'
  kept : ∀ shown c blanks ends, isLineEndBlank c = false → (∀ b ∈ blanks, isIndent b = true) →
    AreLineEnds ends → text = (shown ++ c :: blanks) ++ ends → body = shown ++ c :: blanks

variable {text rest body ends : List Char}

section Ends

/-- What can stand after a newline in line ends is the rest of its own line end and more. -/
theorem exists_blanks (h : ∀ c ∈ rest, isLineEndBlank c = true) :
    ∃ blanks ends, rest = blanks ++ ends ∧ (∀ c ∈ blanks, isIndent c = true) ∧
      AreLineEnds ends := by
  induction rest with
  | nil => exact ⟨[], [], rfl, List.forall_mem_nil _, .nil⟩
  | cons c rest ih =>
      obtain ⟨hc, hrest⟩ := List.forall_mem_cons.mp h
      obtain ⟨blanks, ends, rfl, hindent, hends⟩ := ih hrest
      rw [isLineEndBlank, Bool.or_eq_true, beq_iff_eq] at hc
      obtain rfl | hc := hc
      · exact ⟨[], _, rfl, List.forall_mem_nil _, .cons hindent hends⟩
      · exact ⟨c :: blanks, ends, rfl, List.forall_mem_cons.mpr ⟨hc, hindent⟩, hends⟩

theorem areLineEnds_cons (h : ∀ c ∈ rest, isLineEndBlank c = true) :
    AreLineEnds ('\n' :: rest) := by
  obtain ⟨blanks, ends, rfl, hindent, hends⟩ := exists_blanks h
  exact .cons hindent hends

theorem areLineEnds_newline : AreLineEnds ['\n'] :=
  areLineEnds_cons (List.forall_mem_nil _)

theorem AreLineEnds.isLineEndBlank_of_mem (h : AreLineEnds ends) :
    ∀ c ∈ ends, isLineEndBlank c = true := by
  induction h with
  | nil => exact List.forall_mem_nil _
  | cons indent _ ih =>
      refine List.forall_mem_cons.mpr ⟨rfl, List.forall_mem_append.mpr ⟨fun c hc => ?_, ih⟩⟩
      rw [isLineEndBlank, indent c hc, Bool.or_true]

theorem AreLineEnds.eq_nil_or_cons (h : AreLineEnds ends) :
    ends = [] ∨ ∃ rest, ends = '\n' :: rest ∧ ∀ c ∈ rest, isLineEndBlank c = true := by
  cases h with
  | nil => exact .inl rfl
  | cons indent more =>
      have hblank := (AreLineEnds.cons indent more).isLineEndBlank_of_mem
      exact .inr ⟨_, rfl, (List.forall_mem_cons.mp hblank).2⟩

end Ends

section Dropped

theorem dropLineEnds_append (text : List Char) (h : AreLineEnds ends) :
    dropLineEnds (text ++ ends) = dropLineEnds text := by
  have hends := List.all_eq_true.mpr h.isLineEndBlank_of_mem
  induction text with
  | nil =>
      obtain rfl | ⟨rest, rfl, hrest⟩ := h.eq_nil_or_cons
      · rfl
      · rw [List.nil_append, dropLineEnds.eq_2, List.all_eq_true.mpr hrest]
        rfl
  | cons c text ih =>
      rw [List.cons_append, dropLineEnds, dropLineEnds, List.all_append, hends, Bool.and_true, ih]

/-- A text is its body and the line ends that are dropped. -/
theorem exists_areLineEnds (text : List Char) :
    ∃ ends, text = dropLineEnds text ++ ends ∧ AreLineEnds ends := by
  induction text with
  | nil => exact ⟨[], rfl, .nil⟩
  | cons c text ih =>
      rw [dropLineEnds]
      split
      · next hends =>
          rw [Bool.and_eq_true, beq_iff_eq, List.all_eq_true] at hends
          obtain ⟨rfl, hrest⟩ := hends
          exact ⟨_, rfl, areLineEnds_cons hrest⟩
      · obtain ⟨ends, htext, hends⟩ := ih
        exact ⟨ends, congrArg (List.cons c) htext, hends⟩

/-- Behind the last spaces and tabs of line ends there is a newline. -/
theorem getLast?_of_areLineEnds (h : AreLineEnds ends) (hne : ends ≠ []) (body : List Char) :
    (dropTrailing isIndent (body ++ ends)).getLast? = some '\n' := by
  obtain rfl | ⟨rest, rfl, hrest⟩ := h.eq_nil_or_cons
  · exact absurd rfl hne
  · rw [dropTrailing_append_cons (by decide), List.getLast?_append, List.getLast?_cons]
    cases hlast : (dropTrailing isIndent rest).getLast? with
    | none => rfl
    | some c =>
        have hindent := of_mem_getLast?_dropTrailing rest c hlast
        obtain ⟨run, hrun, _⟩ := exists_trailing isIndent rest
        have hmem : c ∈ rest := by
          rw [hrun]
          exact List.mem_append_left run (List.mem_of_getLast? hlast)
        have hc := hrest c hmem
        rw [isLineEndBlank, hindent, Bool.or_false, beq_iff_eq] at hc
        rw [hc]
        rfl

theorem dropLineEnds_eq_self (h : (dropTrailing isIndent text).getLast? ≠ some '\n') :
    dropLineEnds text = text := by
  obtain ⟨ends, htext, hends⟩ := exists_areLineEnds text
  by_cases hne : ends = []
  · rw [hne, List.append_nil] at htext
    exact htext.symm
  · have hlast := getLast?_of_areLineEnds hends hne (dropLineEnds text)
    rw [← htext] at hlast
    exact absurd hlast h

theorem dropLineEnds_append_cons {c : Char} (hc : isLineEndBlank c = false)
    (before after : List Char) :
    dropLineEnds (before ++ c :: after) = before ++ c :: dropLineEnds after := by
  induction before with
  | nil =>
      have hne : (c == '\n') = false := by
        rw [isLineEndBlank, Bool.or_eq_false_iff] at hc
        exact hc.1
      rw [List.nil_append, List.nil_append, dropLineEnds, hne]
      rfl
  | cons d before ih =>
      have hall : (before ++ c :: after).all isLineEndBlank = false := by
        rw [List.all_append, List.all_cons, hc, Bool.false_and, Bool.and_false]
      rw [List.cons_append, dropLineEnds, hall, Bool.and_false, ih]
      rfl

/-- The spaces and tabs right after a text belong to no line end. -/
theorem dropLineEnds_shown {c : Char} {blanks : List Char} (hc : isLineEndBlank c = false)
    (hblanks : ∀ b ∈ blanks, isIndent b = true) (shown : List Char) :
    dropLineEnds (shown ++ c :: blanks) = shown ++ c :: blanks := by
  have hnone : dropTrailing isIndent blanks = [] := by
    rw [dropTrailing, List.reverse_eq_nil_iff, List.dropWhile_eq_nil_iff]
    exact fun b hb => hblanks b (List.mem_reverse.mp hb)
  have hkept : dropLineEnds blanks = blanks := dropLineEnds_eq_self (by simp [hnone])
  rw [dropLineEnds_append_cons hc, hkept]

/-- No longer end of the text is made of line ends. -/
theorem suffix_of_areLineEnds {other : List Char} (htext : text = dropLineEnds text ++ ends)
    (h : AreLineEnds other) (hother : other <:+ text) : other <:+ ends := by
  have hends : ends <:+ text := ⟨dropLineEnds text, htext.symm⟩
  obtain hin | ⟨more, hmore⟩ := List.suffix_or_suffix_of_suffix hother hends
  · exact hin
  · -- What is left of the longer end would be a newline with line ends after it in the body.
    obtain ⟨before, hbefore⟩ := hother
    have hbody : dropLineEnds text = before ++ more := by
      rw [← hmore, ← List.append_assoc] at hbefore
      exact (List.append_cancel_right (hbefore.trans htext)).symm
    cases more with
    | nil => exact hmore ▸ List.suffix_rfl
    | cons c more =>
        obtain rfl | ⟨rest, rfl, hrest⟩ := h.eq_nil_or_cons
        · cases hmore
        · obtain ⟨rfl, rfl⟩ := List.cons.inj hmore
          exact absurd hbody
            (dropLineEnds_ne fun c hc => hrest c (List.mem_append_left ends hc))

end Dropped

section Steps

theorem dropLineEnd?_eq_none_iff :
    dropLineEnd? text = none ↔ (dropTrailing isIndent text).getLast? ≠ some '\n' := by
  rw [dropLineEnd?]
  split <;> simp [*]

/-- One step takes off a newline and the spaces and tabs after it. -/
theorem exists_of_dropLineEnd? (h : dropLineEnd? text = some rest) :
    ∃ blanks, text = rest ++ '\n' :: blanks ∧ ∀ c ∈ blanks, isIndent c = true := by
  rw [dropLineEnd?] at h
  split at h
  · next hlast =>
      obtain ⟨init, hinit⟩ := List.getLast?_eq_some_iff.mp hlast
      obtain ⟨blanks, htext, hblanks⟩ := exists_trailing isIndent text
      rw [hinit, List.dropLast_concat] at h
      obtain rfl := Option.some.inj h
      rw [hinit, List.append_assoc] at htext
      exact ⟨blanks, htext, hblanks⟩
  · cases h

theorem length_lt_of_dropLineEnd? (h : dropLineEnd? text = some rest) :
    rest.length < text.length := by
  obtain ⟨blanks, rfl, _⟩ := exists_of_dropLineEnd? h
  rw [List.length_append, List.length_cons]
  omega

/-- What is left in the end stays the same with each step. -/
theorem dropLineEnds_of_dropLineEnd? (h : dropLineEnd? text = some rest) :
    dropLineEnds text = dropLineEnds rest := by
  obtain ⟨blanks, rfl, hblanks⟩ := exists_of_dropLineEnd? h
  have hends : AreLineEnds ('\n' :: blanks) := by
    rw [← List.append_nil blanks]
    exact .cons hblanks .nil
  exact dropLineEnds_append rest hends

theorem dropsTo_dropLineEnds (text : List Char) : DropsTo text (dropLineEnds text) := by
  induction hlength : text.length using Nat.strongRecOn generalizing text with
  | ind length ih =>
      cases hstep : dropLineEnd? text with
      | none =>
          rw [dropLineEnds_eq_self (dropLineEnd?_eq_none_iff.mp hstep)]
          exact .stop hstep
      | some rest =>
          have hlt := length_lt_of_dropLineEnd? hstep
          rw [dropLineEnds_of_dropLineEnd? hstep]
          exact .again hstep (ih rest.length (hlength ▸ hlt) rest rfl)

theorem DropsTo.eq (h : DropsTo text body) : body = dropLineEnds text := by
  induction h with
  | stop done => exact (dropLineEnds_eq_self (dropLineEnd?_eq_none_iff.mp done)).symm
  | again step _ ih => exact ih.trans (dropLineEnds_of_dropLineEnd? step).symm

end Steps

theorem isBody_dropLineEnds (text : List Char) : IsBody text (dropLineEnds text) where
  reached other := ⟨DropsTo.eq, fun h => h ▸ dropsTo_dropLineEnds text⟩
  longest := by
    obtain ⟨ends, htext, hends⟩ := exists_areLineEnds text
    exact ⟨ends, htext, hends, fun other h hother => suffix_of_areLineEnds htext h hother⟩
  ended := getLast?_dropLineEnds text
  kept := by
    rintro shown c blanks ends hc hblanks hends rfl
    rw [dropLineEnds_append _ hends, dropLineEnds_shown hc hblanks]

theorem dropLineEnds_dropLineEnds (text : List Char) :
    dropLineEnds (dropLineEnds text) = dropLineEnds text :=
  dropLineEnds_eq_self (getLast?_dropLineEnds text)

/-- Every text is ended by a single newline after its body, and a text that is ended so stays as it
is. -/
theorem endLine_body (text : List Char) :
    ∃ body, IsBody text body ∧ endLine text = body ++ ['\n'] ∧
      endLine (endLine text) = endLine text := by
  refine ⟨dropLineEnds text, isBody_dropLineEnds text, rfl, ?_⟩
  rw [endLine, endLine, dropLineEnds_append _ areLineEnds_newline, dropLineEnds_dropLineEnds]

example : endLine "a  \n\t \n\n ".toList = "a  \n".toList := by decide

end OutlineWiki.Markup
