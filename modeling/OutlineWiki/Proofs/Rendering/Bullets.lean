import OutlineWiki.Proofs.Outline.Lookups
import OutlineWiki.Proofs.Rendering.Spacing
import OutlineWiki.Proofs.Text.Shown

/-!
Bullets of the lines of an item.

An item puts its bullet before each line that it lays out. Only the mark is not split into
lines, so a newline in the tag starts a line that has no bullet of the item. The mark always
stands in the first line of the item, and all lines after it have their bullet.
-/

namespace OutlineWiki
namespace Text

variable {first : Char} {line text : List Char}

/-- Whether each line that starts in the text starts with the character. -/
def startsLines (first : Char) (atStart : Bool) : List Char → Bool
  | [] => true
  | c :: rest => (!atStart || c == first) && startsLines first (c == '\n') rest

theorem startsLines_append (atStart : Bool) (text more : List Char) :
    startsLines first atStart (text ++ more) =
      (startsLines first atStart text &&
        startsLines first (startsLineAfter atStart text) more) := by
  induction text generalizing atStart with
  | nil => rfl
  | cons c text ih =>
      rw [List.cons_append, startsLines, startsLines, ih, startsLineAfter_cons, Bool.and_assoc]

theorem startsLines_line (h : '\n' ∉ line) (atStart : Bool) :
    startsLines first atStart line = (!atStart || line.isEmpty || line.head? == some first) := by
  induction line generalizing atStart with
  | nil => simp [startsLines]
  | cons c line ih =>
      obtain ⟨hc, hline⟩ := not_or.mp (mt List.mem_cons.mpr h)
      rw [startsLines, ih hline, beq_false_of_ne (Ne.symm hc)]
      simp

theorem startsLines_iff_forall_line (hnewline : first ≠ '\n') (hreturn : first ≠ '\r')
    (text : List Char) :
    startsLines first true text = true ↔ ∀ line ∈ lines text, line.head? = some first := by
  induction text using line_induction with
  | last line h =>
      rw [startsLines_line h, lines_line h]
      cases line <;> simp
  | line line rest h ih =>
      rw [startsLines_append, startsLines_line h, startsLineAfter_line h, startsLines,
        lines_line_append h, List.forall_mem_cons, head?_dropReturn_eq_some hreturn, ← ih]
      cases line <;> simp [Ne.symm hnewline]

/-- Each newline is followed by the character exactly when no line starts at the end of the text,
and those that start before it do so with the character. -/
theorem startsLines_iff_forall_newline (atStart : Bool) (text : List Char) :
    (startsLines first atStart text && !startsLineAfter atStart text) = true ↔
      (atStart = true → text.head? = some first) ∧
        ∀ before after, text = before ++ '\n' :: after → after.head? = some first := by
  induction text generalizing atStart with
  | nil => simp [startsLines, startsLineAfter]
  | cons c text ih =>
      rw [startsLines, startsLineAfter_cons, Bool.and_assoc, Bool.and_eq_true, ih]
      refine and_congr (by cases atStart <;> simp) ⟨?_, ?_⟩
      · rintro ⟨hstart, hrest⟩ before after heq
        cases before with
        | nil =>
            cases heq
            exact hstart rfl
        | cons d before =>
            cases heq
            exact hrest before after rfl
      · refine fun h => ⟨fun hc => h [] text ?_, fun before after heq => h (c :: before) after ?_⟩
        · rw [eq_of_beq hc, List.nil_append]
        · rw [heq, List.cons_append]

end Text

namespace Markup

open Text Rendering

section Mark

variable {checkbox : Checkbox} {tag : Option (List Char)} {mark : List Char} {c : Char}

/-- What comes before the space that sets the mark of an item apart. -/
def markBody (checkbox : Checkbox) : Option (List Char) → List Char
  | none => trimEnd (checkboxMark checkbox)
  | some tag => checkboxMark checkbox ++ "**".toList ++ tag ++ ":**".toList

theorem itemMark_eq_some (h : itemMark checkbox tag = some mark) :
    mark = markBody checkbox tag ++ [' '] ∧ EndsShown (markBody checkbox tag) := by
  cases tag with
  | none =>
      cases checkbox with
      | none => cases h
      | on => exact ⟨(Option.some.inj h).symm, [], '☑', by decide, by decide⟩
      | off => exact ⟨(Option.some.inj h).symm, [], '☐', by decide, by decide⟩
      | partly =>
          have hbody : markBody .partly none = "<code>[-]</code".toList ++ ['>'] := by decide
          exact ⟨(Option.some.inj h).symm, _, '>', hbody, by decide⟩
  | some tag =>
      have hmark : itemMark checkbox (some tag) = some (markBody checkbox (some tag) ++ [' ']) := by
        simp [itemMark, markBody]
      have hends : EndsShown ":**".toList := ⟨":*".toList, '*', rfl, by decide⟩
      exact ⟨Option.some.inj (h.symm.trans hmark), hends.append_left _⟩

/-- Only the newlines of the tag start lines in a mark. -/
theorem startsLines_markBody (hc : c ≠ ':') (checkbox : Checkbox) (tag : Option (List Char)) :
    startsLines c false (markBody checkbox tag) = true ↔
      ∀ text ∈ tag, ∀ before after, text = before ++ '\n' :: after → after.head? = some c := by
  have hcheckbox : '\n' ∉ checkboxMark checkbox := by cases checkbox <;> decide
  have hstart : ∀ line, '\n' ∉ line →
      startsLines c false line = true ∧ startsLineAfter false line = false := fun line hline =>
    ⟨by rw [startsLines_line hline]; rfl, by rw [startsLineAfter_line hline]; rfl⟩
  cases tag with
  | none =>
      rw [markBody, (hstart _ (newline_notMem_trimEnd hcheckbox)).1]
      simp
  | some tag =>
      obtain ⟨hbefore, hrest⟩ := hstart (checkboxMark checkbox ++ "**".toList) fun hmem =>
        (List.mem_append.mp hmem).elim hcheckbox (by decide)
      have hafter : startsLines c (startsLineAfter false tag) ":**".toList =
          !startsLineAfter false tag := by
        rw [startsLines_line (by decide)]
        cases startsLineAfter false tag <;> simp [hc.symm]
      have htag := @startsLines_iff_forall_newline c false tag
      rw [markBody]
      generalize checkboxMark checkbox ++ "**".toList = before at hbefore hrest ⊢
      rw [startsLines_append, startsLines_append, startsLineAfter_append, hbefore, hrest,
        Bool.true_and, hafter, htag]
      simp

end Mark

section Lines

variable {c : Char} {text : List Char}

theorem IsBulleted.startsLines (h : IsBulleted c text) :
    startsLines c true text = true ∧ startsLineAfter true text = true := by
  obtain ⟨rows, rfl, hrows⟩ := h
  refine ⟨?_, startsLineAfter_unlines rows⟩
  induction rows with
  | nil => rfl
  | cons row rows ih =>
      obtain ⟨⟨hhead, hline⟩, hrest⟩ := List.forall_mem_cons.mp hrows
      obtain ⟨line, rfl⟩ := List.head?_eq_some_iff.mp hhead
      rw [List.flatMap_cons, startsLines_append, startsLines_append, startsLines_line hline,
        startsLineAfter_append, startsLineAfter_line hline]
      simpa [Text.startsLines, Text.startsLineAfter] using ih hrest

/-- The mark of an item stands in its first line, and what follows has its bullet. -/
theorem itemLines_some (hc : c ≠ '\n') (mark : List Char) (parts : List (Bool × List Char)) :
    ∃ first rest, itemLines c (some mark) parts = itemLine c first ++ rest ∧
      IsBulleted c rest ∧
      (first = trimEnd mark ∨
        ∃ line, '\n' ∉ line ∧ isBlankLine line = false ∧ first = mark ++ trim line) := by
  have hrows := bulleted_of_mem_itemRows hc parts
  rw [itemLines_eq_unlines]
  obtain heq | ⟨line, _, rows, hline, _, hnone, heq⟩ := itemRows_some c mark parts
  · rw [heq]
    exact ⟨trimEnd mark, _, rfl, ⟨_, rfl, hrows⟩, .inl rfl⟩
  · rw [hnone] at hrows
    rw [heq]
    exact ⟨mark ++ trim line, _, rfl, ⟨_, rfl, (List.forall_mem_cons.mp hrows).2⟩,
      .inr ⟨line, hline.1, hline.2, rfl⟩⟩

theorem startsLines_itemLine (hc : isBlank c = false) (h : EndsShown text) :
    Text.startsLines c true (itemLine c text) = Text.startsLines c false text ∧
      startsLineAfter true (itemLine c text) = true := by
  have hnewline : (c == '\n') = false := beq_false_of_ne fun heq => by rw [heq] at hc; cases hc
  have hends := h.startsLineAfter_eq false
  rw [itemLine, startsLines_append, startsLineAfter_append]
  constructor
  · simp [Text.startsLines, startsLineAfter_cons, hnewline, hends]
  · rfl

/-- The newlines of the tag decide whether all lines of an item have its bullet. -/
theorem startsLines_itemLines (hc : isBlank c = false) (hcolon : c ≠ ':') (checkbox : Checkbox)
    (tag : Option (List Char)) (parts : List (Bool × List Char)) :
    (Text.startsLines c true (itemLines c (itemMark checkbox tag) parts) = true ↔
      ∀ text ∈ tag, ∀ before after, text = before ++ '\n' :: after → after.head? = some c) ∧
    startsLineAfter true (itemLines c (itemMark checkbox tag) parts) = true := by
  have hnewline : c ≠ '\n' := fun heq => by rw [heq] at hc; cases hc
  cases hmark : itemMark checkbox tag with
  | none =>
      have hnone : tag = none := by
        cases tag with
        | none => rfl
        | some tag => simp [itemMark] at hmark
      have hmarks : ∀ text ∈ (none : Option (List Char)), '\n' ∉ text := fun _ h => by cases h
      obtain ⟨hstarts, hafter⟩ := (isBulleted_itemLines hnewline hmarks parts).startsLines
      exact ⟨by simp [hstarts, hnone], hafter⟩
  | some mark =>
      obtain ⟨rfl, hends⟩ := itemMark_eq_some hmark
      obtain ⟨first, rest, heq, hrest, hfirst⟩ :=
        itemLines_some hnewline (markBody checkbox tag ++ [' ']) parts
      have hshown : EndsShown first ∧
          Text.startsLines c false first = Text.startsLines c false (markBody checkbox tag) := by
        obtain rfl | ⟨line, hline, hshows, rfl⟩ := hfirst
        · rw [hends.trimEnd_append rfl]
          exact ⟨hends, rfl⟩
        · refine ⟨(endsShown_trim hshows).append_left _, ?_⟩
          rw [List.append_assoc, startsLines_append, hends.startsLineAfter_eq, startsLines_append,
            startsLines_line (newline_notMem_trim hline)]
          simp [Text.startsLines, startsLineAfter]
      obtain ⟨hstarts, hafter⟩ := hrest.startsLines
      obtain ⟨hline, hnext⟩ := startsLines_itemLine hc hshown.1
      rw [heq, startsLines_append, startsLineAfter_append, hnext, hline, hshown.2, hstarts,
        Bool.and_true]
      exact ⟨startsLines_markBody hcolon checkbox tag, hafter⟩

end Lines

end Markup

/-- The character is the bullet of an item, as the owner of the item in a tree has it. -/
def Node.IsBullet (root item : Node) (c : Char) : Prop :=
  (c = '#' ∧ ∃ owner ∈ root.walk, owner.kind = .plainList .ordered ∧ item ∈ owner.members) ∨
  (c = '*' ∧ ¬ ∃ owner ∈ root.walk, owner.kind = .plainList .ordered ∧ item ∈ owner.members)

namespace Markup

open Text Rendering

theorem listTypeAround_of_mem_members {root owner item : Node} {type : ListType}
    (ho : owner ∈ root.prepare.walk) (kind : owner.kind = .plainList type)
    (h : item ∈ owner.members) : listTypeAround (Index.ofTree root.prepare) item = type := by
  rw [listTypeAround, Index.parent?_of_mem_members ho h]
  simp only [kind]

theorem isBullet_listTypeAround {root item : Node} (h : item ∈ root.prepare.walk) :
    root.prepare.IsBullet item (bullet (listTypeAround (Index.ofTree root.prepare) item)) := by
  by_cases hordered : ∃ owner ∈ root.prepare.walk, owner.kind = .plainList .ordered ∧
      item ∈ owner.members
  · refine .inl ⟨?_, hordered⟩
    obtain ⟨owner, ho, kind, hitem⟩ := hordered
    rw [listTypeAround_of_mem_members ho kind hitem]
    rfl
  · refine .inr ⟨?_, hordered⟩
    have htype : listTypeAround (Index.ofTree root.prepare) item ≠ .ordered := by
      intro htype
      rw [listTypeAround] at htype
      cases hparent : (Index.ofTree root.prepare).parent? item with
      | none => simp [hparent] at htype
      | some owner =>
          cases kind : owner.kind with
          | plainList type =>
              simp only [hparent, kind] at htype
              exact hordered ⟨owner, Index.parent?_mem hparent, htype ▸ kind,
                Index.mem_members_of_parent? h hparent⟩
          | _ => simp [hparent, kind] at htype
    cases hcase : listTypeAround (Index.ofTree root.prepare) item with
    | ordered => exact absurd hcase htype
    | unordered | descriptive => rfl

/-- An item that is rendered lays out its children behind the mark of its checkbox and tag. -/
theorem renderNode_listItem_run {context : Context} {depth : Nat} {item : Node}
    {checkbox : Checkbox} {tag : Option (List Node)} {notes later : Footnotes} {text : List Char}
    (kind : item.kind = .listItem checkbox tag)
    (h : (renderNode context depth item).run notes = some (text, later)) :
    ∃ deeper shown between parts markup, depth = deeper + 1 ∧
      (renderCaption (renderNode context deeper) tag).run notes = some (shown, between) ∧
      (renderParts (renderNode context deeper) item.children).run between = some (parts, later) ∧
      (format context (renderNode context deeper) item []).run notes = some (markup, later) ∧
      markup = itemLines (bullet (listTypeAround context.index item)) (itemMark checkbox shown)
        parts ∧
      text = withSpace item markup := by
  obtain ⟨deeper, contents, middle, markup, hdepth, hcontents, hformat, rfl⟩ := renderNode_run h
  rw [contentsOf, kind] at hcontents
  obtain ⟨rfl, rfl⟩ := run_pure_eq_some hcontents
  obtain ⟨shown, between, parts, hshown, hparts, hmarkup⟩ := format_listItem_run kind hformat
  exact ⟨deeper, shown, between, parts, markup, hdepth, hshown, hparts, hformat, hmarkup, rfl⟩

end Markup

open Markup Text in
/-- All lines of an item have its bullet exactly when each newline in what its tag shows is
followed by this bullet. The space after an item adds blank lines only. -/
theorem Context.listItem_lines (root : Node) (context : Context)
    (hindex : context.index = Index.ofTree root.prepare) (item : Node)
    (hitem : item ∈ root.prepare.walk) (checkbox : Checkbox) (tag : Option (List Node))
    (kind : item.kind = .listItem checkbox tag) (depth : Nat) (notes later : Footnotes)
    (text : List Char) (h : (renderNode context depth item).run notes = some (text, later)) :
    ∃ c deeper shown between markup, root.prepare.IsBullet item c ∧ depth = deeper + 1 ∧
      (renderCaption (renderNode context deeper) tag).run notes = some (shown, between) ∧
      (format context (renderNode context deeper) item []).run notes = some (markup, later) ∧
      text = withSpace item markup ∧ shownLines text = shownLines markup ∧
      ((∀ line ∈ lines markup, line.head? = some c ∧ isBlankLine line = false) ↔
        ∀ tagText ∈ shown, ∀ before after, tagText = before ++ '\n' :: after →
          after.head? = some c) := by
  obtain ⟨deeper, shown, between, parts, markup, hdepth, hshown, _, hformat, hmarkup, rfl⟩ :=
    renderNode_listItem_run kind h
  have hbullet := isBullet_listTypeAround hitem
  rw [hindex] at hmarkup
  generalize bullet (listTypeAround (Index.ofTree root.prepare) item) = c at hmarkup hbullet
  have hc : isBlank c = false ∧ c ≠ ':' ∧ c ≠ '\n' ∧ c ≠ '\r' := by
    obtain ⟨rfl, _⟩ | ⟨rfl, _⟩ := hbullet <;> decide
  obtain ⟨hblank, hcolon, hnewline, hreturn⟩ := hc
  obtain ⟨hstarts, hends⟩ := startsLines_itemLines hblank hcolon checkbox shown parts
  rw [← hmarkup] at hstarts hends
  have hb : item.kind.isBlock = true := by rw [kind]; rfl
  have hd : item.kind.isDocument = false := by rw [kind]; rfl
  refine ⟨c, deeper, shown, between, markup, hbullet, hdepth, hshown, hformat, rfl,
    shownLines_withSpace hb hd hends, Iff.trans ?_ hstarts⟩
  rw [startsLines_iff_forall_line hnewline hreturn]
  refine forall₂_congr fun line _ => and_iff_left_of_imp fun hhead => ?_
  obtain ⟨rest, rfl⟩ := List.head?_eq_some_iff.mp hhead
  rw [isBlankLine, List.all_cons, hblank, Bool.false_and]

section

open Node (document paragraph ofKind ofValue)
open Text (lines isBlankLine)

/-- A list of one item whose tag takes two lines. -/
def Node.brokenTag : Node :=
  document [ofKind (.plainList .descriptive)
    [ofKind (.listItem .none (some [ofValue "a\nb"])) [paragraph [ofValue "x"]]]]

/-- The node of the prepared tree with a number. -/
def Node.brokenNode (id : Nat) : Node :=
  (Node.brokenTag.prepare.walk[id]?).getD default

theorem listItem_lines_brokenTag :
    let context := Context.ofTree Node.brokenTag.prepare {} []
    let item := Node.brokenNode 2
    let text := "* **a\nb:** x\n".toList
    item ∈ Node.brokenTag.prepare.walk ∧
      item.kind = .listItem .none (some [Node.brokenNode 3]) ∧
      (context.render item).run {} = some (text, {}) ∧
      ∃ c markup, Node.brokenTag.prepare.IsBullet item c ∧
        text = Markup.withSpace item markup ∧
        ¬ ∀ line ∈ lines markup, line.head? = some c ∧ isBlankLine line = false := by
  have hrun : ((Context.ofTree Node.brokenTag.prepare {} []).render (Node.brokenNode 2)).run {} =
      some ("* **a\nb:** x\n".toList, {}) := by
    rfl
  intro context item text
  have hitem : item ∈ Node.brokenTag.prepare.walk :=
    List.mem_of_getElem? (show Node.brokenTag.prepare.walk[2]? = some item from rfl)
  have kind : item.kind = .listItem .none (some [Node.brokenNode 3]) := rfl
  obtain ⟨c, deeper, shown, between, markup, hbullet, hdepth, hshown, _, htext, _, hlines⟩ :=
    Context.listItem_lines Node.brokenTag context rfl item hitem .none _ kind context.depth {} {}
      text hrun
  have htag : (Markup.renderCaption (Markup.renderNode context deeper)
      (some [Node.brokenNode 3])).run {} = some (some "a\nb".toList, {}) := by
    have hsize : context.depth = 6 := by decide +kernel
    obtain rfl : deeper = 5 := by omega
    rfl
  cases hshown.symm.trans htag
  refine ⟨hitem, kind, hrun, c, markup, hbullet, htext, ?_⟩
  intro hall
  have hnext := hlines.mp hall "a\nb".toList rfl "a".toList "b".toList rfl
  obtain ⟨rfl, _⟩ | ⟨rfl, _⟩ := hbullet
  · cases hnext
  · cases hnext

end

end OutlineWiki
