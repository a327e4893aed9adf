import OutlineWiki.Proofs.Text.Runs

/-!
Replacing by names, and back.

A name starts with a character that does not come again in it, so no name is found across the start
of another one. Names that were not in a text before can be told in it after they were put in, and
what they stand for can be put back, for several names in any order.
-/

namespace OutlineWiki.Text

variable {start : Char} {letters other pattern replacement text before after : List Char}

theorem replaceAll_append_of_notMem (h : start ∉ before) :
    replaceAll (start :: letters) replacement (before ++ after) =
      before ++ replaceAll (start :: letters) replacement after := by
  induction before with
  | nil => rfl
  | cons c before ih =>
      obtain ⟨hc, hbefore⟩ := not_or.mp (mt List.mem_cons.mpr h)
      have hdrop : dropStart? (start :: letters) (c :: (before ++ after)) = none :=
        dropStart?_eq_none_iff.mpr fun hstart => hc (List.cons_prefix_cons.mp hstart).1
      rw [List.cons_append, replaceAll_cons hdrop, ih hbefore, List.cons_append]

/-- A name that stands nowhere in a text can be replaced back. -/
theorem replaceAll_replaceAll_name (hne : pattern ≠ []) (hletters : start ∉ letters)
    (h : ¬ start :: letters <:+: text) :
    replaceAll (start :: letters) pattern (replaceAll pattern (start :: letters) text) = text := by
  have hname : start :: letters ≠ [] := List.cons_ne_nil start letters
  induction text using replace_induction hne with
  | nil => rfl
  | cons c text hdrop ih =>
      have hdrop' : dropStart? (start :: letters)
          (c :: replaceAll pattern (start :: letters) text) = none := by
        refine dropStart?_eq_none_iff.mpr fun hprefix => h ?_
        obtain ⟨rfl, hrest⟩ := List.cons_prefix_cons.mp hprefix
        have hrest := prefix_of_prefix_replaceAll hne hname (head_notMem hletters) hrest
        exact (List.cons_prefix_cons.mpr ⟨rfl, hrest⟩).isInfix
      rw [replaceAll_cons hdrop, replaceAll_cons hdrop', ih fun hin => h (List.infix_cons hin)]
  | found rest ih =>
      have hrest : ¬ start :: letters <:+: rest := fun hin =>
        h (List.infix_append_of_infix_right hin)
      rw [replaceAll_pattern_append hne, replaceAll_pattern_append hname, ih hrest]

/-- A name can be told from another one, and what it stands for has nothing to do with them. -/
structure IsApart (start : Char) (letters meaning other : List Char) : Prop where
  letters_plain : start ∉ letters
  meaning_plain : start ∉ meaning
  meaning_ne : meaning ≠ []
  meaning_first : ∀ c ∈ meaning.head?, c ∉ other
  not_prefix : ¬ letters <+: other

section Apart

variable {meaning otherMeaning rest : List Char} (h : IsApart start letters meaning other)
  (ho : IsApart start other otherMeaning letters)
include h ho

/-- Putting in another name makes no further place of a name. -/
theorem not_infix_replaceAll_name (hno : ¬ start :: letters <:+: text) :
    ¬ start :: letters <:+: replaceAll otherMeaning (start :: other) text := by
  have hname : start :: other ≠ [] := List.cons_ne_nil start other
  have hfirst : ∀ c ∈ (start :: other).head?, c ∉ letters := head_notMem h.letters_plain
  induction text using replace_induction ho.meaning_ne with
  | nil => exact hno
  | cons c text hdrop ih =>
      rw [replaceAll_cons hdrop]
      intro hin
      obtain hprefix | hin := List.infix_cons_iff.mp hin
      · obtain ⟨rfl, hrest⟩ := List.cons_prefix_cons.mp hprefix
        have hrest := prefix_of_prefix_replaceAll ho.meaning_ne hname hfirst hrest
        exact hno (List.cons_prefix_cons.mpr ⟨rfl, hrest⟩).isInfix
      · exact ih (fun hin => hno (List.infix_cons hin)) hin
  | found rest ih =>
      rw [replaceAll_pattern_append ho.meaning_ne, List.cons_append]
      intro hin
      obtain hprefix | hin := List.infix_cons_iff.mp hin
      · obtain hsame | hsame := List.prefix_or_prefix_of_prefix
          (List.cons_prefix_cons.mp hprefix).2 (List.prefix_append other _)
        · exact h.not_prefix hsame
        · exact ho.not_prefix hsame
      · refine ih (fun hin => hno (List.infix_append_of_infix_right hin)) ?_
        exact infix_of_infix_append (List.cons_ne_nil start letters)
          (head_notMem ho.letters_plain) hin

theorem replaceAll_name_append :
    replaceAll (start :: other) otherMeaning (start :: letters ++ rest) =
      start :: letters ++ replaceAll (start :: other) otherMeaning rest := by
  have hdrop : dropStart? (start :: other) (start :: (letters ++ rest)) = none := by
    refine dropStart?_eq_none_iff.mpr fun hprefix => ?_
    obtain hsame | hsame := List.prefix_or_prefix_of_prefix
      (List.cons_prefix_cons.mp hprefix).2 (List.prefix_append letters rest)
    · exact ho.not_prefix hsame
    · exact h.not_prefix hsame
  rw [List.cons_append, replaceAll_cons hdrop, replaceAll_append_of_notMem h.letters_plain,
    List.cons_append]

omit h in
/-- What stands for a name makes no further name with what is before it. -/
theorem replaceAll_cons_replaceAll {c : Char} (hc : ¬ start :: letters <+: c :: text) :
    replaceAll (start :: letters) meaning
        (c :: replaceAll (start :: other) otherMeaning text) =
      c :: replaceAll (start :: letters) meaning
        (replaceAll (start :: other) otherMeaning text) := by
  refine replaceAll_cons (dropStart?_eq_none_iff.mpr fun hprefix => hc ?_)
  obtain ⟨rfl, hrest⟩ := List.cons_prefix_cons.mp hprefix
  exact List.cons_prefix_cons.mpr ⟨rfl, prefix_of_prefix_replaceAll (List.cons_ne_nil start other)
    ho.meaning_ne ho.meaning_first hrest⟩

theorem replaceAll_comm_name_append
    (hrest : replaceAll (start :: letters) meaning
        (replaceAll (start :: other) otherMeaning rest) =
      replaceAll (start :: other) otherMeaning (replaceAll (start :: letters) meaning rest)) :
    replaceAll (start :: letters) meaning
        (replaceAll (start :: other) otherMeaning (start :: letters ++ rest)) =
      replaceAll (start :: other) otherMeaning
        (replaceAll (start :: letters) meaning (start :: letters ++ rest)) := by
  have hname : start :: letters ≠ [] := List.cons_ne_nil start letters
  rw [replaceAll_name_append h ho, replaceAll_pattern_append hname,
    replaceAll_pattern_append hname, hrest, replaceAll_append_of_notMem h.meaning_plain]

/-- Two names that can be told apart are replaced in any order. -/
theorem replaceAll_comm (text : List Char) :
    replaceAll (start :: letters) meaning (replaceAll (start :: other) otherMeaning text) =
      replaceAll (start :: other) otherMeaning (replaceAll (start :: letters) meaning text) := by
  -- A name takes several characters at once, so the induction is on the length.
  induction hlength : text.length using Nat.strongRecOn generalizing text with
  | ind n ih =>
      have hshorter : ∀ {name rest : List Char}, name ≠ [] → text = name ++ rest →
          rest.length < n := by
        rintro name rest hname rfl
        rw [← hlength, List.length_append]
        exact Nat.lt_add_of_pos_left (List.length_pos_iff.mpr hname)
      by_cases hletters : start :: letters <+: text
      · obtain ⟨rest, rfl⟩ := hletters
        exact replaceAll_comm_name_append h ho
          (ih _ (hshorter (List.cons_ne_nil start letters) rfl) rest rfl)
      · by_cases hother : start :: other <+: text
        · obtain ⟨rest, rfl⟩ := hother
          exact (replaceAll_comm_name_append ho h
            (ih _ (hshorter (List.cons_ne_nil start other) rfl) rest rfl).symm).symm
        · cases text with
          | nil => rfl
          | cons c text =>
              rw [replaceAll_cons (dropStart?_eq_none_iff.mpr hother),
                replaceAll_cons (dropStart?_eq_none_iff.mpr hletters),
                replaceAll_cons_replaceAll ho hletters, replaceAll_cons_replaceAll h hother,
                ih text.length (hshorter (List.cons_ne_nil c []) rfl) text rfl]

end Apart

end OutlineWiki.Text
