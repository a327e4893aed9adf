import OutlineWiki.Markup.Render
import OutlineWiki.Proofs.Text.LineStart

/-!
Marks that stay whole in the layout of a text.

A mark is a piece of text without blanks. Layout trims texts, splits them into lines,
and puts bullets and spaces around them, but it never takes a mark apart: where a mark
stands in a text, it stands in what layout makes of the text.
-/

namespace OutlineWiki.Text

/-- A piece of text that is not empty and holds no blank. -/
structure IsMark (mark : List Char) : Prop where
  ne_nil : mark ≠ []
  solid : ∀ c ∈ mark, isBlank c = false

variable {mark text : List Char}

theorem infix_flatMap {α : Type} {f : α → List Char} {list : List α} {a : α} (ha : a ∈ list)
    (h : mark <:+: f a) : mark <:+: list.flatMap f := by
  rw [List.flatMap_def]
  exact h.trans (List.infix_of_mem_flatten (List.mem_map_of_mem ha))

theorem infix_dropWhile {test : Char → Bool} (hm : mark ≠ []) (ht : ∀ c ∈ mark, test c = false)
    (h : mark <:+: text) : mark <:+: text.dropWhile test := by
  obtain ⟨before, after, rfl⟩ := h
  induction before with
  | nil =>
      obtain ⟨c, rest, rfl⟩ := List.exists_cons_of_ne_nil hm
      rw [List.nil_append, List.cons_append, List.dropWhile_cons, ht c List.mem_cons_self]
      exact ⟨[], after, by simp⟩
  | cons c before ih =>
      rw [List.cons_append, List.cons_append, List.dropWhile_cons]
      split
      · exact ih
      · exact ⟨c :: before, after, rfl⟩

theorem infix_dropTrailing {test : Char → Bool} (hm : mark ≠ [])
    (ht : ∀ c ∈ mark, test c = false) (h : mark <:+: text) : mark <:+: dropTrailing test text := by
  rw [← List.reverse_infix, dropTrailing, List.reverse_reverse]
  apply infix_dropWhile (by simpa using hm) (fun c hc => ht c (List.mem_reverse.mp hc))
  exact List.reverse_infix.mpr h

namespace IsMark

variable (hm : IsMark mark)
include hm

theorem infix_trimEnd (h : mark <:+: text) : mark <:+: trimEnd text :=
  infix_dropTrailing hm.ne_nil hm.solid h

theorem infix_trim (h : mark <:+: text) : mark <:+: trim text :=
  hm.infix_trimEnd (infix_dropWhile hm.ne_nil hm.solid h)

theorem not_isBlankLine (h : mark <:+: text) : isBlankLine text = false := by
  obtain ⟨c, rest, rfl⟩ := List.exists_cons_of_ne_nil hm.ne_nil
  have hc := hm.solid c List.mem_cons_self
  apply Bool.eq_false_iff.mpr
  intro hall
  rw [List.all_eq_true.mp hall c (h.subset List.mem_cons_self)] at hc
  cases hc

theorem newline_notMem : '\n' ∉ mark := fun h => by
  have hblank := hm.solid '\n' h
  revert hblank
  decide

theorem return_notMem : '\r' ∉ mark := fun h => by
  have hblank := hm.solid '\r' h
  revert hblank
  decide

theorem infix_dropReturn (h : mark <:+: text) : mark <:+: dropReturn text := by
  rw [dropReturn]
  split
  · next hlast =>
      obtain ⟨init, rfl⟩ := List.getLast?_eq_some_iff.mp hlast
      rw [List.dropLast_concat]
      obtain hsuffix | hinfix := List.infix_concat_iff.mp (by simpa using h)
      · have hmem : '\r' ∈ mark := by
          obtain hnil | ⟨start, hstart, _⟩ := List.suffix_concat_iff.mp hsuffix
          · exact absurd hnil hm.ne_nil
          · rw [hstart]
            exact List.mem_append_right start (List.mem_singleton_self '\r')
        exact absurd hmem hm.return_notMem
      · exact hinfix
  · exact h

theorem exists_piece (h : mark <:+: text) : ∃ piece ∈ splitOn '\n' text, mark <:+: piece := by
  obtain ⟨before, after, rfl⟩ := h
  induction before with
  | nil =>
      obtain ⟨piece, rest, hrest⟩ := List.exists_cons_of_ne_nil (splitOn_ne_nil '\n' after)
      have hpieces := splitOn_append_of_notMem hm.newline_notMem hrest
      rw [List.nil_append, hpieces]
      exact ⟨_, List.mem_cons_self, List.infix_append_left⟩
  | cons c before ih =>
      obtain ⟨piece, hpiece, hin⟩ := ih
      simp only [splitOn, List.cons_append, List.foldr_cons] at hpiece ⊢
      split
      · exact ⟨piece, List.mem_cons_of_mem _ hpiece, hin⟩
      · split
        · next hnil => rw [hnil] at hpiece; cases hpiece
        · next first rest hcons =>
            rw [hcons, List.mem_cons] at hpiece
            obtain rfl | hrest := hpiece
            · exact ⟨_, List.mem_cons_self, List.infix_cons hin⟩
            · exact ⟨piece, List.mem_cons_of_mem _ hrest, hin⟩

/-- A mark stands in one of the lines of a text. -/
theorem exists_line (h : mark <:+: text) : ∃ line ∈ lines text, mark <:+: line := by
  obtain ⟨piece, hpiece, hin⟩ := hm.exists_piece h
  rw [lines]
  generalize splitOn '\n' text = pieces at hpiece
  induction pieces with
  | nil => cases hpiece
  | cons first rest ih =>
      cases rest with
      | nil =>
          rw [List.mem_singleton] at hpiece
          subst hpiece
          have hne : piece ≠ [] := fun hnil => hm.ne_nil (List.infix_nil.mp (hnil ▸ hin))
          rw [linesOfPieces, if_neg (by simpa using hne)]
          exact ⟨piece, List.mem_singleton_self _, hin⟩
      | cons second rest =>
          obtain rfl | hrest := List.mem_cons.mp hpiece
          · exact ⟨_, List.mem_cons_self, hm.infix_dropReturn hin⟩
          · obtain ⟨line, hline, hinline⟩ := ih hrest
            exact ⟨line, List.mem_cons_of_mem _ hline, hinline⟩

end IsMark

/-- Filling a template keeps what has no placeholders and does not look like the end of one. -/
theorem infix_fill (hm : mark ≠ []) (hs : ∀ c ∈ mark, c ≠ '%')
    (hhead : ∀ c ∈ mark.head?, c ≠ 's' ∧ c ≠ 'd') (h : mark <:+: text)
    (arguments : List (List Char)) : mark <:+: fill text arguments := by
  have hprefix : ∀ {more : List Char}, mark <+: more → ∀ arguments,
      mark <:+: fill more arguments := by
    rintro more ⟨after, rfl⟩ arguments
    have hkeep : ∀ solid : List Char, (∀ c ∈ solid, c ≠ '%') →
        fill (solid ++ after) arguments = solid ++ fill after arguments := by
      intro solid hsolid
      induction solid with
      | nil => rfl
      | cons c solid ih =>
          rw [List.cons_append, fill_cons (hsolid c List.mem_cons_self),
            ih fun d hd => hsolid d (List.mem_cons_of_mem _ hd), List.cons_append]
    rw [hkeep mark hs]
    exact List.infix_append_left
  have hnot : ∀ {c : Char} {more : List Char}, (c = '%' ∨ c = 's' ∨ c = 'd') →
      mark <:+: c :: more → mark <:+: more := by
    intro c more hc h
    obtain ⟨after, hafter⟩ | hin := List.infix_cons_iff.mp h
    · obtain ⟨first, rest, rfl⟩ := List.exists_cons_of_ne_nil hm
      have hfirst : first = c := (List.cons.inj hafter).1
      have hne := hs first List.mem_cons_self
      have hmark := hhead first rfl
      grind
    · exact hin
  fun_induction fill text arguments with
  | case1 => exact absurd (List.infix_nil.mp h) hm
  | case2 => exact absurd (List.infix_nil.mp (hnot (.inl rfl) h)) hm
  | case3 c rest arguments hc ih =>
      exact List.infix_append_of_infix_right
        (ih (hnot (.inr hc) (hnot (.inl rfl) h)))
  | case4 rest arguments _ ih => exact List.infix_cons (ih (hnot (.inl rfl) (hnot (.inl rfl) h)))
  | case5 c rest arguments _ _ ih => exact List.infix_cons (ih (hnot (.inl rfl) h))
  | case6 c rest arguments hlast hmore ih =>
      obtain hstart | hin := List.infix_cons_iff.mp h
      · have hkeep := hprefix hstart arguments
        have hc : c ≠ '%' := by
          rintro rfl
          cases rest with
          | nil => exact hlast rfl rfl
          | cons next rest => exact hmore next rest rfl rfl
        rwa [fill_cons hc] at hkeep
      · exact List.infix_cons (ih hin)

end OutlineWiki.Text

namespace OutlineWiki.Markup

open OutlineWiki.Text

variable {mark text : List Char}

theorem infix_itemLine {bullet : Char} (h : mark <:+: text) : mark <:+: itemLine bullet text :=
  List.infix_cons (List.infix_cons (List.infix_append_of_infix_left h))

theorem infix_textLines_mark {bullet : Char} {before : List Char} {rows : List (List Char)}
    (hrows : rows ≠ []) (h : mark <:+: before) :
    mark <:+: textLines bullet (some before) rows := by
  cases rows with
  | nil => exact absurd rfl hrows
  | cons line rest =>
      exact List.infix_append_of_infix_left
        (infix_itemLine (List.infix_append_of_infix_left h))

variable (hm : IsMark mark)
include hm

theorem isLineEndBlank_of_mem {c : Char} (hc : c ∈ mark) : isLineEndBlank c = false := by
  have hsolid := hm.solid c hc
  apply Bool.eq_false_iff.mpr
  intro hblank
  rw [isLineEndBlank, Bool.or_eq_true, beq_iff_eq] at hblank
  obtain rfl | hindent := hblank
  · exact hm.newline_notMem hc
  · rw [isBlank_of_isIndent hindent] at hsolid
    cases hsolid

theorem infix_dropLineEnds (h : mark <:+: text) : mark <:+: dropLineEnds text := by
  induction text with
  | nil => exact absurd (List.infix_nil.mp h) hm.ne_nil
  | cons c rest ih =>
      have hall : mark <:+: rest → rest.all isLineEndBlank = false := by
        intro hrest
        obtain ⟨d, more, rfl⟩ := List.exists_cons_of_ne_nil hm.ne_nil
        have hd := isLineEndBlank_of_mem hm (List.mem_cons_self (a := d) (l := more))
        apply Bool.eq_false_iff.mpr
        intro hblank
        rw [List.all_eq_true.mp hblank d (hrest.subset List.mem_cons_self)] at hd
        cases hd
      obtain ⟨after, hafter⟩ | hrest := List.infix_cons_iff.mp h
      · -- Here the mark starts, and nothing within it is a line end.
        have hkeep : ∀ solid : List Char, '\n' ∉ solid →
            dropLineEnds (solid ++ after) = solid ++ dropLineEnds after := by
          intro solid hsolid
          induction solid with
          | nil => rfl
          | cons d solid ihs =>
              rw [List.mem_cons, not_or] at hsolid
              have hd : (d == '\n') = false := by simpa using Ne.symm hsolid.1
              simp only [List.cons_append, dropLineEnds, hd, Bool.false_and, Bool.false_eq_true,
                if_false, ihs hsolid.2]
        rw [← hafter, hkeep mark hm.newline_notMem]
        exact List.infix_append_left
      · rw [dropLineEnds, hall hrest, Bool.and_false, if_neg Bool.false_ne_true]
        exact List.infix_cons (ih hrest)

theorem infix_withSpace (node : Node) (h : mark <:+: text) : mark <:+: withSpace node text := by
  rw [withSpace]
  split
  · exact h
  · dsimp only
    split
    · exact List.infix_append_of_infix_left
        (List.infix_append_of_infix_left (infix_dropLineEnds hm h))
    · exact List.infix_append_of_infix_left h

theorem infix_nestedLine {bullet : Char} (h : mark <:+: text) :
    mark <:+: nestedLine bullet text :=
  List.infix_cons (List.infix_append_of_infix_left (hm.infix_trimEnd h))

theorem exists_shownLine (h : mark <:+: text) : ∃ line ∈ shownLines text, mark <:+: line := by
  obtain ⟨line, hline, hin⟩ := hm.exists_line h
  refine ⟨line, List.mem_filter.mpr ⟨hline, ?_⟩, hin⟩
  rw [hm.not_isBlankLine hin]
  rfl

theorem infix_textLines {bullet : Char} {before : Option (List Char)}
    {rows : List (List Char)} {line : List Char} (hline : line ∈ rows) (h : mark <:+: line) :
    mark <:+: textLines bullet before rows := by
  cases rows with
  | nil => cases hline
  | cons first rest =>
      obtain rfl | hrest := List.mem_cons.mp hline
      · refine List.infix_append_of_infix_left (infix_itemLine ?_)
        cases before with
        | none => exact hm.infix_trimEnd h
        | some before => exact List.infix_append_of_infix_right (hm.infix_trim h)
      · apply List.infix_append_of_infix_right
        exact infix_flatMap hrest (infix_itemLine (hm.infix_trimEnd h))

theorem infix_itemLines_mark {bullet : Char} {before : List Char}
    {parts : List (Bool × List Char)} (h : mark <:+: before) :
    mark <:+: itemLines bullet (some before) parts := by
  have hline : mark <:+: markLine bullet (some before) := infix_itemLine (hm.infix_trimEnd h)
  induction parts with
  | nil => exact hline
  | cons part parts ih =>
      obtain ⟨isList, markup⟩ := part
      cases isList with
      | true =>
          exact List.infix_append_of_infix_left (List.infix_append_of_infix_left hline)
      | false =>
          rw [itemLines]
          cases hempty : (shownLines markup).isEmpty with
          | true => exact List.infix_append_of_infix_right ih
          | false =>
              refine List.infix_append_of_infix_left (infix_textLines_mark ?_ h)
              exact fun hnil => by simp [hnil] at hempty

theorem infix_itemLines {bullet : Char} {before : Option (List Char)}
    {parts : List (Bool × List Char)} {part : Bool × List Char} (hpart : part ∈ parts)
    (h : mark <:+: part.2) : mark <:+: itemLines bullet before parts := by
  induction parts generalizing before with
  | nil => cases hpart
  | cons first parts ih =>
      obtain ⟨isList, markup⟩ := first
      obtain rfl | hrest := List.mem_cons.mp hpart
      · obtain ⟨line, hline, hin⟩ := exists_shownLine hm h
        cases isList with
        | true =>
            refine List.infix_append_of_infix_left (List.infix_append_of_infix_right ?_)
            exact infix_flatMap hline (infix_nestedLine hm hin)
        | false => exact List.infix_append_of_infix_left (infix_textLines hm hline hin)
      · cases isList <;> exact List.infix_append_of_infix_right (ih hrest)

theorem infix_quoteBlock (h : mark <:+: text) : mark <:+: quoteBlock text := by
  refine List.infix_append_of_infix_left (List.infix_append_of_infix_right ?_)
  refine infix_dropTrailing hm.ne_nil (fun c hc => ?_) h
  exact beq_eq_false_iff_ne.mpr fun hnewline => hm.newline_notMem (hnewline ▸ hc)

end OutlineWiki.Markup
