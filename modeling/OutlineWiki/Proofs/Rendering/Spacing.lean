import OutlineWiki.Export
import OutlineWiki.Outline.Build
import OutlineWiki.Proofs.Outline.Spaces
import OutlineWiki.Proofs.Rendering.Comparison
import OutlineWiki.Proofs.Rendering.ItemRows

/-!
Space between siblings.

What a block shows ends in one newline and the blank lines after the block, so blocks of a
prepared tree are separated wherever siblings are rendered one after the other. Only an item
lays its children out line by line, and leaves their blank lines out.
-/

namespace OutlineWiki
namespace Markup

open Text Rendering

/-- A text of lines that all start with the bullet. -/
def IsBulleted (bullet : Char) (text : List Char) : Prop :=
  ∃ rows : List (List Char), text = rows.flatMap (· ++ ['\n']) ∧
    ∀ row ∈ rows, row.head? = some bullet ∧ '\n' ∉ row

/-- A row shows a line when it ends in what the line shows. It is a single line, and not blank. -/
structure ShowsLine (line row : List Char) : Prop where
  newline : '\n' ∉ row
  shown : isBlankLine row = false
  suffix : trim line <:+ row

/-- What an item has before the lines of its children. Its mark stands in front of the first of
these lines, or on a line of its own. -/
def OpensItem (bullet : Char) : Option (List Char) → List Char → Prop
  | none, before => before = []
  | some mark, before => before = bullet :: ' ' :: mark ∨ before = itemLine bullet (trimEnd mark)

/-- The lines are laid out below one another behind the mark, with no blank line between them. -/
def LaysOut (bullet : Char) (mark : Option (List Char)) (lines : List (List Char))
    (text : List Char) : Prop :=
  ∃ before rows, text = before ++ unlines rows ∧ OpensItem bullet mark before ∧
    List.Forall₂ ShowsLine lines rows

section Items

variable {c : Char} {line row : List Char}

theorem showsLine_trim (h : '\n' ∉ line ∧ isBlankLine line = false) :
    ShowsLine line (trim line) where
  newline := newline_notMem_trim h.1
  shown := (endsShown_trim h.2).isBlankLine_eq
  suffix := List.suffix_rfl

variable (hc : c ≠ '\n')
include hc

theorem IsRowOf.showsLine (h : IsRowOf c line row) : ShowsLine line row := by
  have hends : EndsShown row ∧ trim line <:+ row := by
    obtain ⟨⟨_, hshown⟩, hrow⟩ := h
    have hline := endsShown_trimEnd hshown
    have hsuffix := trim_suffix_trimEnd hshown
    obtain rfl | rfl := hrow
    · exact ⟨hline.append_left [c], hsuffix.trans (List.suffix_append [c] _)⟩
    · exact ⟨hline.append_left [c, ' '], hsuffix.trans (List.suffix_append [c, ' '] _)⟩
  exact ⟨h.newline_notMem hc, hends.1.isBlankLine_eq, hends.2⟩

/-- Whatever the mark is, the lines that the children show have no blank line between them. -/
theorem laysOut_itemLines (mark : Option (List Char)) (parts : List (Bool × List Char)) :
    LaysOut c mark (parts.flatMap fun part => shownLines part.2) (itemLines c mark parts) := by
  have hrows := forall₂_itemRows (c := c) parts
  have hshows : ∀ line row, IsRowOf c line row → ShowsLine line row := fun _ _ h => h.showsLine hc
  rw [itemLines_eq_unlines]
  cases mark with
  | none => exact ⟨[], _, rfl, rfl, hrows.imp hshows⟩
  | some mark =>
      obtain heq | ⟨line, lines, rows, hline, hlines, hnone, heq⟩ := itemRows_some c mark parts
      · rw [heq]
        exact ⟨itemLine c (trimEnd mark), _, rfl, .inr rfl, hrows.imp hshows⟩
      · have htext : unlines (entryRow c (.marked mark line) :: rows) =
            (c :: ' ' :: mark) ++ unlines (trim line :: rows) := by
          simp [unlines, entryRow, Entry.shown]
        rw [hlines, hnone] at hrows
        rw [heq, hlines, htext]
        exact ⟨_, _, rfl, .inl rfl, .cons (showsLine_trim hline)
          ((List.forall₂_cons.mp hrows).2.imp hshows)⟩

-- Only the mark keeps its blank lines.
example : itemLines '*' (some "**a\n\nb:** ".toList) [(false, "x\n\ny\n\n".toList)] =
    "* **a\n\nb:** x\n* y\n".toList := by
  decide

theorem bulleted_of_mem_itemRows (parts : List (Bool × List Char)) :
    ∀ row ∈ itemRows c none parts, row.head? = some c ∧ '\n' ∉ row := by
  intro row hrow
  obtain ⟨line, h⟩ := exists_isRowOf hrow
  exact ⟨h.head?_eq, h.newline_notMem hc⟩

theorem bulleted_entryRow {entry : Entry} (h : '\n' ∉ entry.shown) :
    (entryRow c entry).head? = some c ∧ '\n' ∉ entryRow c entry :=
  ⟨rfl, List.not_mem_cons_of_ne_of_not_mem hc.symm
    (List.not_mem_cons_of_ne_of_not_mem (by decide) h)⟩

/-- An item is laid out in lines that start with its bullet, unless its mark takes several. -/
theorem isBulleted_itemLines {mark : Option (List Char)} (h : ∀ text ∈ mark, '\n' ∉ text)
    (parts : List (Bool × List Char)) : IsBulleted c (itemLines c mark parts) := by
  have hrows := bulleted_of_mem_itemRows hc parts
  rw [itemLines_eq_unlines]
  refine ⟨_, rfl, ?_⟩
  cases mark with
  | none => exact hrows
  | some mark =>
      have hmark := h mark rfl
      obtain heq | ⟨line, lines, rows, hline, _, hnone, heq⟩ := itemRows_some c mark parts
      · rw [heq]
        exact List.forall_mem_cons.mpr
          ⟨bulleted_entryRow hc (newline_notMem_trimEnd hmark), hrows⟩
      · rw [hnone] at hrows
        have hfirst : '\n' ∉ (Entry.marked mark line).shown := fun hmem =>
          (List.mem_append.mp hmem).elim hmark (newline_notMem_trim hline.1)
        rw [heq]
        exact List.forall_mem_cons.mpr
          ⟨bulleted_entryRow hc hfirst, (List.forall_mem_cons.mp hrows).2⟩

end Items

section Runs

variable {context : Context} {render : Node → Rendering (List Char)} {notes later : Footnotes}
  {text : List Char}

/-- A node that is rendered gets its own markup first, and then the space after it. -/
theorem renderNode_run {depth : Nat} {node : Node}
    (h : (renderNode context depth node).run notes = some (text, later)) :
    ∃ deeper contents between markup, depth = deeper + 1 ∧
      (contentsOf (renderNode context deeper) node).run notes = some (contents, between) ∧
      (format context (renderNode context deeper) node contents).run between =
        some (markup, later) ∧
      text = withSpace node markup := by
  cases depth with
  | zero => cases h
  | succ depth =>
      rw [renderNode, renderWith_eq] at h
      obtain ⟨contents, between, hcontents, hrest⟩ := run_bind_eq_some h
      obtain ⟨markup, last, hformat, hpure⟩ := run_bind_eq_some hrest
      obtain ⟨rfl, rfl⟩ := run_pure_eq_some hpure
      exact ⟨depth, contents, between, markup, rfl, hcontents, hformat, rfl⟩

theorem renderAll_append_run {before after : List Node}
    (h : (renderAll render (before ++ after)).run notes = some (text, later)) :
    ∃ first between rest, (renderAll render before).run notes = some (first, between) ∧
      (renderAll render after).run between = some (rest, later) ∧ text = first ++ rest := by
  induction before generalizing notes text with
  | nil => exact ⟨[], notes, text, rfl, h, rfl⟩
  | cons node before ih =>
      obtain ⟨shown, middle, hnode, hmore⟩ := run_bind_eq_some h
      obtain ⟨rest, last, hrest, hpure⟩ := run_bind_eq_some hmore
      obtain ⟨rfl, rfl⟩ := run_pure_eq_some hpure
      obtain ⟨first, between, others, hfirst, hothers, rfl⟩ := ih hrest
      refine ⟨shown ++ first, between, others, ?_, hothers, (List.append_assoc _ _ _).symm⟩
      rw [renderAll, run_bind, hnode]
      dsimp only [Option.bind_some]
      rw [run_bind, hfirst]
      rfl

theorem renderAll_cons_run {node : Node} {nodes : List Node}
    (h : (renderAll render (node :: nodes)).run notes = some (text, later)) :
    ∃ shown between rest, (render node).run notes = some (shown, between) ∧
      (renderAll render nodes).run between = some (rest, later) ∧ text = shown ++ rest := by
  obtain ⟨shown, between, hnode, hmore⟩ := run_bind_eq_some h
  obtain ⟨rest, last, hrest, hpure⟩ := run_bind_eq_some hmore
  obtain ⟨rfl, rfl⟩ := run_pure_eq_some hpure
  exact ⟨shown, between, rest, hnode, hrest, rfl⟩

theorem renderNode_endsBlock {depth : Nat} {node : Node} (hb : node.kind.isBlock = true)
    (hd : node.kind.isDocument = false)
    (h : (renderNode context depth node).run notes = some (text, later)) :
    text = [] ∨ EndsBlock (node.postBlank.getD 0).toNat text := by
  obtain ⟨_, _, _, markup, _, _, _, rfl⟩ := renderNode_run h
  by_cases hm : markup = []
  · exact .inl (withSpace_eq_nil_iff.mpr hm)
  · exact .inr (withSpace_endsBlock hb hd hm)

theorem renderParts_run {R : Node → Bool × List Char → Prop} {nodes : List Node}
    (h : ∀ node ∈ nodes, ∀ text, (render node).Gives text → R node (node.kind.isPlainList, text))
    {parts : List (Bool × List Char)}
    (hrun : (renderParts render nodes).run notes = some (parts, later)) :
    List.Forall₂ R nodes parts := by
  induction nodes generalizing notes parts with
  | nil =>
      obtain ⟨rfl, _⟩ := run_pure_eq_some hrun
      exact .nil
  | cons node nodes ih =>
      obtain ⟨first, between, hnode, hmore⟩ := run_bind_eq_some hrun
      obtain ⟨rest, last, hrest, hpure⟩ := run_bind_eq_some hmore
      obtain ⟨rfl, rfl⟩ := run_pure_eq_some hpure
      exact .cons (h node List.mem_cons_self first ⟨notes, between, hnode⟩)
        (ih (fun other ho => h other (List.mem_cons_of_mem _ ho)) hrest)

theorem newline_notMem_itemMark {checkbox : Checkbox} {tag : Option (List Char)}
    (h : ∀ text ∈ tag, '\n' ∉ text) : ∀ mark ∈ itemMark checkbox tag, '\n' ∉ mark := by
  intro mark hmark
  have hcheckbox : '\n' ∉ checkboxMark checkbox := by cases checkbox <;> decide
  have htext : ∀ text, '\n' ∉ text →
      (mark ∈ if text.isEmpty = true then none else some text) → '\n' ∉ mark := by
    intro text htext hmem
    split at hmem
    · cases hmem
    · exact Option.mem_some.mp hmem ▸ htext
  refine htext _ ?_ hmark
  cases tag with
  | none => simpa using hcheckbox
  | some tag =>
      have htag := h tag rfl
      simp [hcheckbox, htag]

section Items

variable {node : Node} {checkbox : Checkbox} {tag : Option (List Node)} {contents : List Char}
  (kind : node.kind = .listItem checkbox tag)
  (h : (format context render node contents).run notes = some (text, later))
include kind h

/-- An item lays out its children behind the mark of its checkbox and tag. -/
theorem format_listItem_run :
    ∃ shown between parts, (renderCaption render tag).run notes = some (shown, between) ∧
      (renderParts render node.children).run between = some (parts, later) ∧
      text = itemLines (bullet (listTypeAround context.index node)) (itemMark checkbox shown)
        parts := by
  simp only [format, kind] at h
  obtain ⟨shown, between, hshown, hmore⟩ := run_bind_eq_some h
  obtain ⟨parts, last, hparts, hpure⟩ := run_bind_eq_some hmore
  obtain ⟨rfl, rfl⟩ := run_pure_eq_some hpure
  exact ⟨shown, between, parts, hshown, hparts, rfl⟩

/-- Whatever its tag shows, an item leaves out the blank lines of its children. -/
theorem laysOut_format :
    ∃ shown between parts, (renderCaption render tag).run notes = some (shown, between) ∧
      (renderParts render node.children).run between = some (parts, later) ∧
      List.Forall₂ (fun child part => (render child).Gives part.2) node.children parts ∧
      LaysOut (bullet (listTypeAround context.index node)) (itemMark checkbox shown)
        (parts.flatMap fun part => shownLines part.2) text := by
  obtain ⟨shown, between, parts, hshown, hparts, rfl⟩ := format_listItem_run kind h
  have hchildren := renderParts_run (R := fun child part => (render child).Gives part.2)
    (fun child _ text hgives => hgives) hparts
  exact ⟨shown, between, parts, hshown, hparts, hchildren,
    laysOut_itemLines (bullet_ne_newline _) _ parts⟩

/-- The lines of an item all start with its bullet, unless its tag takes several lines. -/
theorem isBulleted_format
    (htag : ∀ shown, (renderCaption render tag).Gives (some shown) → '\n' ∉ shown) :
    IsBulleted (bullet (listTypeAround context.index node)) text := by
  obtain ⟨shown, between, parts, hshown, _, rfl⟩ := format_listItem_run kind h
  refine isBulleted_itemLines (bullet_ne_newline _) (newline_notMem_itemMark ?_) parts
  rintro tagText rfl
  exact htag tagText ⟨notes, between, hshown⟩

end Items

end Runs

end Markup

open Markup in
/-- How the blocks of a prepared tree are kept apart when they are rendered. -/
structure Context.KeepsApart (context : Context) (root : Node) (depth : Nat) : Prop where
  /-- A block shows nothing, or ends in one newline before the blank lines that it has. -/
  block : ∀ node notes text later,
    (renderNode context depth node).run notes = some (text, later) →
    node.kind.isBlock = true → node.kind.isDocument = false →
      text = [] ∨ EndsBlock (node.postBlank.getD 0).toNat text
  /-- Below the root, a block has a blank line after it, unless it is laid out line by line. -/
  blankLine : ∀ node ∈ root.prepare.descendants, node.kind.isBlock = true →
    node.kind.isLine = false → ∃ count, node.postBlank = some count ∧ 1 ≤ count
  /-- Among siblings, what such a block shows ends in a blank line, so this line stands between it
  and the rest. -/
  siblings : ∀ owner ∈ root.prepare.walk, ∀ before node after,
    before ++ node :: after ∈ owner.lists →
    node.kind.isBlock = true → node.kind.isLine = false → node.kind.isDocument = false →
    ∀ notes text later,
      (renderAll (renderNode context depth) (before ++ node :: after)).run notes =
        some (text, later) →
      ∃ first start shown next rest,
        (renderAll (renderNode context depth) before).run notes = some (first, start) ∧
        (renderNode context depth node).run start = some (shown, next) ∧
        (renderAll (renderNode context depth) after).run next = some (rest, later) ∧
        text = first ++ shown ++ rest ∧
        ∃ count, node.postBlank = some count ∧ 1 ≤ count ∧
          (shown = [] ∨ EndsBlock count.toNat shown)
  /-- A node shows nothing at all exactly when it has no markup of its own. -/
  empty : ∀ node notes text later,
    (renderNode context depth node).run notes = some (text, later) →
    ∃ deeper contents between markup, depth = deeper + 1 ∧
      (contentsOf (renderNode context deeper) node).run notes = some (contents, between) ∧
      (format context (renderNode context deeper) node contents).run between =
        some (markup, later) ∧
      (text = [] ↔ markup = [])
  /-- An item shows the lines of its children one below another, without the blank ones. Only the
  mark of its checkbox and tag stands before them, and no blank line between them. -/
  item : ∀ node checkbox tag, node.kind = .listItem checkbox tag →
    ∀ contents notes markup later,
      (format context (renderNode context depth) node contents).run notes =
        some (markup, later) →
      ∃ shown between parts,
        (renderCaption (renderNode context depth) tag).run notes = some (shown, between) ∧
        (renderParts (renderNode context depth) node.children).run between =
          some (parts, later) ∧
        List.Forall₂ (fun child part => (renderNode context depth child).Gives part.2)
          node.children parts ∧
        LaysOut (bullet (listTypeAround context.index node)) (itemMark checkbox shown)
          (parts.flatMap fun part => shownLines part.2) markup
  /-- If what the tag shows is a single line, all lines of the item start with its bullet. -/
  bulleted : ∀ node checkbox tag, node.kind = .listItem checkbox tag →
    (∀ shown, (renderCaption (renderNode context depth) tag).Gives (some shown) →
      '\n' ∉ shown) →
    ∀ contents notes markup later,
      (format context (renderNode context depth) node contents).run notes =
        some (markup, later) →
      IsBulleted (bullet (listTypeAround context.index node)) markup

theorem Context.siblings_separated (context : Context) (root : Node) (depth : Nat) :
    context.KeepsApart root depth := by
  have hseparated : ∀ node ∈ root.prepare.descendants, node.kind.isBlock = true →
      node.kind.isLine = false → ∃ count, node.postBlank = some count ∧ 1 ≤ count := by
    intro node hn hb hl
    refine Node.isSeparated_of_mem_descendants_prepare hn ?_
    rw [Node.isSpaced, hb, hl]
    rfl
  constructor
  case block => exact fun node notes text later h hb hd => Markup.renderNode_endsBlock hb hd h
  case blankLine => exact hseparated
  case siblings =>
    intro owner ho before node after hlist hb hl hd notes text later h
    obtain ⟨first, start, others, hfirst, hothers, rfl⟩ := Markup.renderAll_append_run h
    obtain ⟨shown, next, rest, hnode, hrest, rfl⟩ := Markup.renderAll_cons_run hothers
    have hbelow : node ∈ root.prepare.descendants :=
      Node.mem_descendants_iff.mpr
        ⟨owner, ho, Node.mem_members_iff.mpr ⟨_, hlist, by simp⟩⟩
    obtain ⟨count, hcount, hle⟩ := hseparated node hbelow hb hl
    have hends := Markup.renderNode_endsBlock hb hd hnode
    rw [hcount] at hends
    exact ⟨first, start, shown, next, rest, hfirst, hnode, hrest,
      (List.append_assoc _ _ _).symm, count, hcount, hle, hends⟩
  case empty =>
    intro node notes text later h
    obtain ⟨deeper, contents, between, markup, hdepth, hcontents, hformat, rfl⟩ :=
      Markup.renderNode_run h
    exact ⟨deeper, contents, between, markup, hdepth, hcontents, hformat,
      Markup.withSpace_eq_nil_iff⟩
  case item =>
    exact fun node checkbox tag kind contents notes markup later =>
      Markup.laysOut_format kind
  case bulleted =>
    exact fun node checkbox tag kind htag contents notes markup later h =>
      Markup.isBulleted_format kind h htag

section

open Node (document paragraph ofKind ofValue)

/-- An item that holds two paragraphs, and a quote that holds two more. -/
def Node.pairedParagraphs : Node :=
  document
    [ofKind (.plainList .unordered)
      [ofKind (.listItem .none none) [paragraph [ofValue "a"], paragraph [ofValue "b"]]],
    ofKind .quoteBlock [paragraph [ofValue "c"], paragraph [ofValue "d"]]]

/-- The node of the prepared tree with a number. -/
def Node.pairedNode (id : Nat) : Node :=
  (Node.pairedParagraphs.prepare.walk[id]?).getD default

theorem siblings_separated_quoted :
    let context := Context.ofTree Node.pairedParagraphs.prepare {} []
    let quote := Node.pairedNode 7
    quote ∈ Node.pairedParagraphs.prepare.walk ∧
    quote.children = [Node.pairedNode 8, Node.pairedNode 10] ∧
    (Markup.renderAll context.render quote.children).run {} =
      some ("c\n\nd\n\n".toList, {}) ∧
    ∃ shown rest count, "c\n\nd\n\n".toList = shown ++ rest ∧ shown = "c\n\n".toList ∧
      (Node.pairedNode 8).postBlank = some count ∧ 1 ≤ count ∧
      Markup.EndsBlock count.toNat shown := by
  intro context quote
  have hquote : quote ∈ Node.pairedParagraphs.prepare.walk :=
    List.mem_of_getElem? (show Node.pairedParagraphs.prepare.walk[7]? = some quote from rfl)
  have hchildren : quote.children = [Node.pairedNode 8, Node.pairedNode 10] := rfl
  have hrun : (Markup.renderAll context.render quote.children).run {} =
      some ("c\n\nd\n\n".toList, {}) := by
    rfl
  have hnode : (context.render (Node.pairedNode 8)).run {} = some ("c\n\n".toList, {}) := by
    rfl
  have hlist : [] ++ Node.pairedNode 8 :: [Node.pairedNode 10] ∈ quote.lists :=
    List.mem_singleton_self _
  obtain ⟨first, start, shown, _, rest, hfirst, hshown, _, heq, count, hcount, hle, hends⟩ :=
    (context.siblings_separated Node.pairedParagraphs context.depth).siblings quote hquote [] _ _
      hlist rfl rfl rfl {} _ _ hrun
  -- Nothing stands before the paragraph, so it is rendered first.
  obtain ⟨rfl, rfl⟩ := Rendering.run_pure_eq_some hfirst
  cases hshown.symm.trans hnode
  exact ⟨hquote, hchildren, hrun, _, rest, count, heq, rfl, hcount, hle,
    hends.resolve_left (List.cons_ne_nil _ _)⟩

/-- The paragraphs of an item are not separated by a blank line. -/
theorem not_forall_items_separated :
    ¬ ∀ (root : Node) (options : Options), ∀ item ∈ root.prepare.walk,
      ∀ checkbox, item.kind = .listItem checkbox none →
      ∀ before block next after, item.children = before ++ block :: next :: after →
      block.kind.isBlock = true → block.kind.isLine = false → block.kind.isDocument = false →
      let context := Context.ofTree root.prepare options []
      ∀ shown more text, Context.start (context.render block) = some shown → shown ≠ [] →
        Context.start (context.render next) = some more → more ≠ [] →
        Context.start (context.render item) = some text →
        ∃ line ∈ Text.lines text, Text.isBlankLine line = true := by
  intro h
  have hitem : Node.pairedNode 2 ∈ Node.pairedParagraphs.prepare.walk :=
    List.mem_of_getElem?
      (show Node.pairedParagraphs.prepare.walk[2]? = some (Node.pairedNode 2) from rfl)
  have hblank := h Node.pairedParagraphs {} _ hitem .none rfl [] (Node.pairedNode 3)
    (Node.pairedNode 5) [] rfl rfl rfl rfl "a\n\n".toList "b\n\n".toList "* a\n* b\n".toList
    rfl (by decide) rfl (by decide) rfl
  exact absurd hblank (by decide)

end

end OutlineWiki
