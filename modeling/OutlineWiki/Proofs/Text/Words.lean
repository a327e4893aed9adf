import OutlineWiki.Text.Blank

/-!
Words of a text.

A word ends at the first blank after it. Joining words by single spaces keeps them, so two texts
become the same when their blanks are normalized exactly when they have the same words.
-/

namespace OutlineWiki.Text

/-- A word is not empty and holds no blank. -/
structure IsWord (word : List Char) : Prop where
  ne_nil : word ≠ []
  solid : ∀ c ∈ word, isBlank c = false

theorem splitWords_cons (c : Char) (text : List Char) :
    splitWords (c :: text) =
      if isBlank c then ([], words text)
      else (c :: (splitWords text).1, (splitWords text).2) := by
  rw [splitWords, List.foldr_cons, words, splitWords]

theorem splitWords_append {word : List Char} (h : ∀ c ∈ word, isBlank c = false)
    (text : List Char) :
    splitWords (word ++ text) = (word ++ (splitWords text).1, (splitWords text).2) := by
  induction word with
  | nil => rfl
  | cons c word ih =>
      obtain ⟨hc, hword⟩ := List.forall_mem_cons.mp h
      rw [List.cons_append, splitWords_cons, hc, ih hword]
      rfl

theorem IsWord.words_eq {word : List Char} (h : IsWord word) : words word = [word] := by
  have hsplit := splitWords_append h.solid []
  rw [List.append_nil] at hsplit
  rw [words, hsplit]
  obtain ⟨c, rest, rfl⟩ := List.exists_cons_of_ne_nil h.ne_nil
  simp [splitWords]

theorem IsWord.words_append {word : List Char} (h : IsWord word) {c : Char}
    (hc : isBlank c = true) (text : List Char) :
    words (word ++ c :: text) = word :: words text := by
  rw [words, splitWords_append h.solid, splitWords_cons, if_pos hc]
  obtain ⟨first, rest, rfl⟩ := List.exists_cons_of_ne_nil h.ne_nil
  simp

/-- What precedes the first blank holds none, and all that follows is made of words. -/
theorem solid_splitWords (text : List Char) :
    (∀ c ∈ (splitWords text).1, isBlank c = false) ∧ ∀ word ∈ (splitWords text).2, IsWord word := by
  induction text with
  | nil => simp [splitWords]
  | cons c text ih =>
      obtain ⟨hfirst, hrest⟩ := ih
      rw [splitWords_cons]
      split
      · refine ⟨fun d hd => absurd hd List.not_mem_nil, ?_⟩
        rw [words]
        dsimp only
        split
        · exact hrest
        · next hne =>
            exact List.forall_mem_cons.mpr ⟨⟨by simpa using hne, hfirst⟩, hrest⟩
      · next hc => exact ⟨List.forall_mem_cons.mpr ⟨by simpa using hc, hfirst⟩, hrest⟩

theorem isWord_of_mem_words {text word : List Char} (h : word ∈ words text) : IsWord word := by
  -- After a blank, every word stands behind the first blank.
  have hblank : isBlank ' ' = true := rfl
  have hsplit := (solid_splitWords (' ' :: text)).2
  rw [splitWords_cons, if_pos hblank] at hsplit
  exact hsplit word h

theorem words_join {list : List (List Char)} (h : ∀ word ∈ list, IsWord word) :
    words (join [' '] list) = list := by
  induction list with
  | nil => rfl
  | cons word list ih =>
      obtain ⟨hword, hlist⟩ := List.forall_mem_cons.mp h
      cases list with
      | nil => simpa [join] using hword.words_eq
      | cons next list =>
          have hjoin : join [' '] (word :: next :: list) =
              word ++ ' ' :: join [' '] (next :: list) := by
            simp [join, List.intercalate]
          rw [hjoin, hword.words_append rfl, ih hlist]

theorem words_normalizeBlanks (text : List Char) : words (normalizeBlanks text) = words text :=
  words_join fun _ => isWord_of_mem_words

/-- Texts are the same up to runs of blanks exactly when they have the same words. -/
theorem normalizeBlanks_eq_iff {text other : List Char} :
    normalizeBlanks text = normalizeBlanks other ↔ words text = words other := by
  constructor
  · intro h
    rw [← words_normalizeBlanks text, h, words_normalizeBlanks]
  · exact fun h => congrArg (join [' ']) h

end OutlineWiki.Text
