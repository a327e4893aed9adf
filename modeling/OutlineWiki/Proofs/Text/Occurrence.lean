import OutlineWiki.Text.Search

/-!
Occurrences of a pattern.

Where a search splits a text is told without the search: the pattern stands there, and
nowhere earlier. So a text has at most one such place. Of a search from the end it is enough
that the pattern stands there.
-/

namespace OutlineWiki.Text

/-- The pattern stands in the text between the two parts, and nowhere earlier. -/
structure FirstAt (pattern before after text : List Char) : Prop where
  parts : text = before ++ pattern ++ after
  first : ∀ earlier later, text = earlier ++ pattern ++ later → before.length ≤ earlier.length

variable {pattern before after text : List Char}

theorem FirstAt.unique {earlier later : List Char} (h : FirstAt pattern before after text)
    (ho : FirstAt pattern earlier later text) : before = earlier ∧ after = later := by
  have hlength : before.length = earlier.length :=
    Nat.le_antisymm (h.first _ _ ho.parts) (ho.first _ _ h.parts)
  have hparts : before ++ (pattern ++ after) = earlier ++ (pattern ++ later) := by
    rw [← List.append_assoc, ← List.append_assoc, ← h.parts, ho.parts]
  obtain ⟨hbefore, hrest⟩ := List.append_inj hparts hlength
  exact ⟨hbefore, List.append_cancel_left hrest⟩

theorem firstAt_of_splitFirst? (h : splitFirst? pattern text = some (before, after)) :
    FirstAt pattern before after text := by
  induction text generalizing before with
  | nil =>
      rw [splitFirst?] at h
      split at h
      · next hempty =>
          cases h
          rw [List.isEmpty_iff.mp hempty]
          exact ⟨rfl, fun _ _ _ => Nat.zero_le _⟩
      · cases h
  | cons c text ih =>
      rw [splitFirst?] at h
      split at h
      · next hstart =>
          cases h
          exact ⟨eq_append_of_dropStart? hstart, fun _ _ _ => Nat.zero_le _⟩
      · next hstart =>
          obtain ⟨⟨rest, later⟩, hsplit, heq⟩ := Option.map_eq_some_iff.mp h
          cases heq
          have hrest := ih hsplit
          refine ⟨congrArg (c :: ·) hrest.parts, fun earlier more heq => ?_⟩
          cases earlier with
          | nil =>
              rw [heq, List.nil_append, dropStart?_append] at hstart
              cases hstart
          | cons d earlier =>
              exact Nat.succ_le_succ (hrest.first earlier more (List.cons.inj heq).2)

theorem splitFirst?_isSome_of_eq (h : text = before ++ pattern ++ after) :
    (splitFirst? pattern text).isSome = true := by
  induction text generalizing before with
  | nil =>
      have hnil : pattern = [] := by
        have hlength := congrArg List.length h
        simp only [List.length_nil, List.length_append] at hlength
        exact List.eq_nil_of_length_eq_zero (by omega)
      rw [hnil]
      rfl
  | cons c text ih =>
      rw [splitFirst?]
      cases before with
      | nil =>
          rw [h, List.nil_append, dropStart?_append]
          rfl
      | cons d before =>
          split
          · rfl
          · rw [Option.isSome_map]
            exact ih (List.cons.inj h).2

/-- A search splits a text where the pattern stands first. -/
theorem splitFirst?_eq_some_iff :
    splitFirst? pattern text = some (before, after) ↔ FirstAt pattern before after text := by
  refine ⟨firstAt_of_splitFirst?, fun h => ?_⟩
  obtain ⟨⟨earlier, later⟩, hsplit⟩ :=
    Option.isSome_iff_exists.mp (splitFirst?_isSome_of_eq h.parts)
  obtain ⟨rfl, rfl⟩ := h.unique (firstAt_of_splitFirst? hsplit)
  exact hsplit

theorem contains_eq_true_iff : contains pattern text = true ↔ pattern <:+: text := by
  constructor
  · intro h
    obtain ⟨⟨before, after⟩, hsplit⟩ := Option.isSome_iff_exists.mp h
    exact ⟨before, after, (firstAt_of_splitFirst? hsplit).parts.symm⟩
  · rintro ⟨before, after, h⟩
    exact splitFirst?_isSome_of_eq h.symm

theorem exists_firstAt (h : pattern <:+: text) :
    ∃ before after, FirstAt pattern before after text := by
  obtain ⟨_, _, hparts⟩ := h
  obtain ⟨⟨before, after⟩, hsplit⟩ :=
    Option.isSome_iff_exists.mp (splitFirst?_isSome_of_eq hparts.symm)
  exact ⟨before, after, firstAt_of_splitFirst? hsplit⟩

theorem FirstAt.replaceFirst_eq (h : FirstAt pattern before after text)
    (replacement : List Char) :
    replaceFirst pattern replacement text = before ++ replacement ++ after := by
  rw [replaceFirst, splitFirst?_eq_some_iff.mpr h]

theorem eq_append_of_splitLast? (h : splitLast? pattern text = some (before, after)) :
    text = before ++ pattern ++ after := by
  induction text generalizing before with
  | nil =>
      rw [splitLast?] at h
      split at h
      · next hempty =>
          cases h
          rw [List.isEmpty_iff.mp hempty]
          rfl
      · cases h
  | cons c text ih =>
      rw [splitLast?] at h
      split at h
      · next split hsplit =>
          cases h
          exact congrArg (c :: ·) (ih hsplit)
      · obtain ⟨rest, hrest, heq⟩ := Option.map_eq_some_iff.mp h
        cases heq
        exact eq_append_of_dropStart? hrest

theorem eq_append_of_dropEnd? (h : dropEnd? pattern text = some before) :
    text = before ++ pattern := by
  obtain ⟨rest, hrest, rfl⟩ := Option.map_eq_some_iff.mp h
  have hreverse := congrArg List.reverse (eq_append_of_dropStart? hrest)
  simpa using hreverse

end OutlineWiki.Text
