import OutlineWiki.Proofs.Rendering.Bullets
import OutlineWiki.Proofs.Rendering.Rows

/-!
Rendering of nested lists.

An item lays out the lines that its children show, and a list around it takes these lines
apart again. Nothing is lost on the way: each line ends in what is not blank, so every level
only puts its bullet before the rows of the level below.
-/

namespace OutlineWiki

open Text

namespace Markup

section Children

variable {options : Options} {c : Char} {render : Node → Rendering (List Char)}

/-- What stands for a child of an item has the lines and rows of the child. -/
structure ShowsChild (options : Options) (c : Char) (child : Node) (part : Bool × List Char) :
    Prop where
  list : part.1 = child.kind.isPlainList
  lines : part.1 = false → shownLines part.2 = child.paragraphLines options
  rows : partRows c part = (child.nestRows options [c]).map Row.text

theorem flatMap_partRows {children : List Node} {parts : List (Bool × List Char)}
    (h : List.Forall₂ (ShowsChild options c) children parts) :
    parts.flatMap (partRows c) =
      (children.flatMap fun child => child.nestRows options [c]).map Row.text := by
  induction h with
  | nil => rfl
  | cons hchild _ ih =>
      rw [List.flatMap_cons, List.flatMap_cons, List.map_append, hchild.rows, ih]

/-- The first list of an item stands where the parts have it. -/
theorem partRows_split {children : List Node} {parts : List (Bool × List Char)}
    (h : List.Forall₂ (ShowsChild options c) children parts) :
    leadingLines parts = (children.takeWhile fun child => !child.kind.isPlainList).flatMap
        (Node.paragraphLines options) ∧
      (parts.dropWhile fun part => !part.1).flatMap (partRows c) =
        ((children.dropWhile fun child => !child.kind.isPlainList).flatMap
          fun child => child.nestRows options [c]).map Row.text := by
  induction h with
  | nil => exact ⟨rfl, rfl⟩
  | @cons child part children parts hchild hrest ih =>
      rw [leadingLines, List.takeWhile_cons, List.dropWhile_cons, List.takeWhile_cons,
        List.dropWhile_cons, ← hchild.list]
      cases hlist : part.1 with
      | true => exact ⟨rfl, flatMap_partRows (.cons hchild hrest)⟩
      | false => exact ⟨congrArg₂ _ (hchild.lines hlist) ih.1, ih.2⟩

theorem itemRows_eq_nestRows {item : Node} {checkbox : Checkbox}
    (kind : item.kind = .listItem checkbox none) {parts : List (Bool × List Char)}
    (h : List.Forall₂ (ShowsChild options c) item.children parts) :
    itemRows c (itemMark checkbox none) parts = (item.nestRows options [c]).map Row.text := by
  obtain ⟨hleading, htrailing⟩ := partRows_split h
  rw [itemRows, Node.nestRows_listItem kind, List.map_append, List.map_map, hleading, htrailing]
  rfl

/-- Nodes that are rendered one after another show their lines one after another. -/
theorem shownLines_renderAll {nodes : List Node} {own : Node → List (List Char)}
    (h : ∀ node ∈ nodes, ∀ text, (render node).Gives text →
      startsLineAfter true text = true ∧ shownLines text = own node)
    {text : List Char} (hgives : (renderAll render nodes).Gives text) :
    startsLineAfter true text = true ∧ shownLines text = nodes.flatMap own := by
  obtain ⟨notes, later, hrun⟩ := hgives
  induction nodes generalizing notes text with
  | nil =>
      obtain ⟨rfl, _⟩ := Rendering.run_pure_eq_some hrun
      exact ⟨rfl, rfl⟩
  | cons node nodes ih =>
      obtain ⟨shown, between, rest, hnode, hrest, rfl⟩ := renderAll_cons_run hrun
      obtain ⟨hends, hshown⟩ := h node List.mem_cons_self shown ⟨notes, between, hnode⟩
      obtain ⟨hafter, hothers⟩ := ih (fun other ho => h other (List.mem_cons_of_mem _ ho))
        between hrest
      rw [startsLineAfter_append, hends, shownLines_append hends, hshown, hothers,
        List.flatMap_cons]
      exact ⟨hafter, rfl⟩

end Children

end Markup

section Nests

open Markup

variable {context : Context} {root node : Node}

/-- The lines that a node of a nest shows, where an item has the bullet of its own list. -/
def Context.nestLines (context : Context) (node : Node) : List (List Char) :=
  match node.kind with
  | .plainList _ => (node.nestRows context.options []).map Row.text
  | .listItem _ _ =>
    (node.nestRows context.options [bullet (listTypeAround context.index node)]).map Row.text
  | _ => node.paragraphLines context.options

theorem Context.nestLines_plainList {type : ListType} (kind : node.kind = .plainList type) :
    context.nestLines node = (node.nestRows context.options []).map Row.text := by
  rw [nestLines, kind]

theorem Context.nestLines_listItem {checkbox : Checkbox} {tag : Option (List Node)}
    (kind : node.kind = .listItem checkbox tag) :
    context.nestLines node =
      (node.nestRows context.options [bullet (listTypeAround context.index node)]).map
        Row.text := by
  rw [nestLines, kind]

theorem Context.nestLines_paragraph (kind : node.kind = .paragraph) :
    context.nestLines node = node.paragraphLines context.options := by
  rw [nestLines, kind]

theorem Node.IsNested.trimEnd_text {options : Options} (h : node.IsNested) {row : Row}
    (hrow : row ∈ node.nestRows options []) : trimEnd row.text = row.text := by
  have hends := (h.nestRows_shown List.not_mem_nil row hrow).2
  have htrim : trimEnd (row.text ++ []) = row.text := hends.trimEnd_append rfl
  rwa [List.append_nil] at htrim

theorem Node.IsNested.showsChild (h : node.IsNested)
    (kind : node.kind = .paragraph ∨ ∃ type, node.kind = .plainList type) {markup : List Char}
    (hshown : shownLines markup = context.nestLines node) (c : Char) :
    ShowsChild context.options c node (node.kind.isPlainList, markup) := by
  obtain kind | ⟨type, kind⟩ := kind
  · rw [Context.nestLines_paragraph kind] at hshown
    refine ⟨rfl, fun _ => hshown, ?_⟩
    rw [partRows, hshown, kind, Node.nestRows_paragraph kind, List.map_map]
    rfl
  · rw [Context.nestLines_plainList kind] at hshown
    refine ⟨rfl, fun hlist => ?_, ?_⟩
    · rw [kind] at hlist
      cases hlist
    · have hrows : node.nestRows context.options ([c] ++ []) =
          (node.nestRows context.options []).map (Row.under [c]) := h.nestRows_append [c] []
      rw [List.append_nil] at hrows
      rw [partRows, hshown, kind, hrows, List.map_map, List.map_map]
      refine List.map_congr_left fun row hrow => ?_
      exact congrArg (List.cons c) (h.trimEnd_text hrow)

theorem renderNode_startsLineAfter {depth : Nat} {notes later : Footnotes} {text : List Char}
    (hb : node.kind.isBlock = true) (hd : node.kind.isDocument = false)
    (h : (renderNode context depth node).run notes = some (text, later)) :
    startsLineAfter true text = true := by
  obtain rfl | hends := renderNode_endsBlock hb hd h
  · rfl
  · exact hends.startsLineAfter

/-- A node of a nest shows its rows, if it is rendered at all. -/
theorem Node.IsNested.shownLines_eq (hindex : context.index = Index.ofTree root.prepare)
    (h : node.IsNested) (hmem : node ∈ root.prepare.walk) {depth : Nat} {text : List Char}
    (hgives : (renderNode context depth node).Gives text) :
    startsLineAfter true text = true ∧ shownLines text = context.nestLines node := by
  have hbelow : ∀ {node child : Node}, node ∈ root.prepare.walk → child ∈ node.children →
      child ∈ root.prepare.walk := fun hnode hchild =>
    mem_walk_trans (mem_walk_of_mem_members (mem_members_of_children hchild)) hnode
  induction h generalizing depth text with
  | @list node type kind items nested ih =>
      obtain ⟨notes, later, hrun⟩ := hgives
      have hb : node.kind.isBlock = true := by rw [kind]; rfl
      have hd : node.kind.isDocument = false := by rw [kind]; rfl
      refine ⟨renderNode_startsLineAfter hb hd hrun, ?_⟩
      obtain ⟨deeper, contents, between, markup, _, hcontents, hformat, rfl⟩ :=
        renderNode_run hrun
      rw [contentsOf, kind] at hcontents
      simp only [format, kind] at hformat
      obtain ⟨rfl, rfl⟩ := Rendering.run_pure_eq_some hformat
      obtain ⟨hends, hshown⟩ := shownLines_renderAll
        (fun item hitem text => ih item hitem (hbelow hmem hitem)) ⟨notes, _, hcontents⟩
      rw [shownLines_withSpace hb hd hends, hshown, Context.nestLines_plainList kind,
        nestRows_plainList kind, List.map_flatMap]
      refine List.flatMap_congr fun item hitem => ?_
      obtain ⟨checkbox, hkind⟩ := items item hitem
      rw [Context.nestLines_listItem hkind, hindex,
        listTypeAround_of_mem_members hmem kind (mem_members_of_children hitem)]
      rfl
  | @item node checkbox kind held nested ih =>
      obtain ⟨notes, later, hrun⟩ := hgives
      have hb : node.kind.isBlock = true := by rw [kind]; rfl
      have hd : node.kind.isDocument = false := by rw [kind]; rfl
      refine ⟨renderNode_startsLineAfter hb hd hrun, ?_⟩
      obtain ⟨deeper, shown, between, parts, markup, _, hshown, hparts, _, rfl, rfl⟩ :=
        renderNode_listItem_run kind hrun
      obtain ⟨rfl, _⟩ := Rendering.run_pure_eq_some hshown
      have hchildren := renderParts_run (fun child hchild text hgives =>
        (nested child hchild).showsChild (held child hchild)
          (ih child hchild (hbelow hmem hchild) hgives).2
          (bullet (listTypeAround context.index node))) hparts
      have hbullet : '\n' ∉ [bullet (listTypeAround context.index node)] :=
        List.not_mem_cons_of_ne_of_not_mem (bullet_ne_newline _).symm List.not_mem_nil
      rw [itemLines_eq_unlines, itemRows_eq_nestRows kind hchildren,
        shownLines_withSpace hb hd (startsLineAfter_unlines _), shownLines_unlines,
        Context.nestLines_listItem kind]
      intro row hrow
      obtain ⟨row, hmem, rfl⟩ := List.mem_map.mp hrow
      exact (IsNested.item kind held nested).nestRows_shown hbullet row hmem
  | @paragraph node kind texts =>
      have htext := renderNode_paragraph_gives kind texts hgives
      obtain ⟨notes, later, hrun⟩ := hgives
      refine ⟨renderNode_startsLineAfter (by rw [kind]; rfl) (by rw [kind]; rfl) hrun, ?_⟩
      rw [htext, Context.nestLines_paragraph kind]
      rfl

end Nests

namespace Rendering

variable {α β : Type}

/-- The rendering ends with any registry, and gives no footnote a number. -/
def Silent (rendering : Rendering α) : Prop :=
  ∀ notes, ∃ result, rendering.run notes = some (result, notes)

theorem silent_pure (result : α) : Silent (pure result) :=
  fun _ => ⟨result, rfl⟩

theorem silent_bind {first : Rendering α} {next : α → Rendering β} (hfirst : Silent first)
    (hnext : ∀ result, first.Gives result → Silent (next result)) : Silent (first >>= next) := by
  intro notes
  obtain ⟨result, hrun⟩ := hfirst notes
  obtain ⟨last, hlast⟩ := hnext result ⟨notes, notes, hrun⟩ notes
  exact ⟨last, by rw [run_bind, hrun]; exact hlast⟩

end Rendering

open Rendering

def Comparison.silent : Comparison :=
  ⟨fun rendering _ => Silent rendering, silent_pure, silent_bind⟩

section Silence

open Markup

variable {context : Context} {node : Node}

/-- The nodes of a nest, and the runs of text in its paragraphs, show their children only. -/
def Node.ShowsChildrenOnly (node : Node) : Prop :=
  (∃ type, node.kind = .plainList type) ∨ (∃ checkbox, node.kind = .listItem checkbox none) ∨
    node.kind = .paragraph ∨ ∃ value, node.kind = .plainText value

theorem Node.ShowsChildrenOnly.silent (h : node.ShowsChildrenOnly)
    (hchildren : ∀ child ∈ node.children, ∀ depth, child.walk.length ≤ depth →
      Silent (renderNode context depth child))
    {depth : Nat} (hdepth : node.walk.length ≤ depth) :
    Silent (renderNode context depth node) := by
  have hpos : 0 < node.walk.length := List.length_pos_of_mem node.mem_walk_self
  obtain ⟨below, rfl⟩ := Nat.exists_eq_succ_of_ne_zero (Nat.ne_zero_of_lt (hpos.trans_le hdepth))
  have hmem : ∀ shown, Shows context (renderNode context below) node shown →
      shown ∈ node.children := by
    intro shown hs
    obtain ⟨_, hk⟩ | ⟨_, hk⟩ | hk | ⟨_, hk⟩ := h
    all_goals
      cases hs with
      | child _ hmem => exact hmem
      | part _ hmem => exact hmem
      | title kind => cases hk.symm.trans kind
      | tag kind => cases hk.symm.trans kind
      | caption kind => cases hk.symm.trans kind
      | radio kind => cases hk.symm.trans kind
      | image kind => cases hk.symm.trans kind
  have hrel : Comparison.silent.Rel (renderWith context (renderNode context below) node)
      (renderWith context (renderNode context below) node) := by
    refine renderWith_rel .silent (fun shown hs => ?_) fun hreference => ?_
    · have hchild := hmem shown hs
      have hlt := length_walk_lt (mem_members_of_children hchild)
      exact hchildren shown hchild below (by omega)
    · obtain ⟨_, hk⟩ | ⟨_, hk⟩ | hk | ⟨_, hk⟩ := h
      all_goals
        rw [hk] at hreference
        cases hreference
  exact hrel

theorem Node.IsNested.silent (h : node.IsNested)
    (hleaf : ∀ text ∈ node.walk, (∃ value, text.kind = .plainText value) → text.children = [])
    {depth : Nat} (hdepth : node.walk.length ≤ depth) :
    Silent (renderNode context depth node) := by
  have hbelow : ∀ {node child : Node}, child ∈ node.children → child.walk ⊆ node.walk :=
    fun hchild _ hmem => mem_walk_trans hmem (mem_walk_of_mem_members
      (mem_members_of_children hchild))
  induction h generalizing depth with
  | list kind items nested ih =>
      refine ShowsChildrenOnly.silent (.inl ⟨_, kind⟩) (fun item hitem depth => ?_) hdepth
      exact ih item hitem fun text htext => hleaf text (hbelow hitem htext)
  | item kind held nested ih =>
      refine ShowsChildrenOnly.silent (.inr (.inl ⟨_, kind⟩)) (fun child hchild depth => ?_) hdepth
      exact ih child hchild fun text htext => hleaf text (hbelow hchild htext)
  | paragraph kind texts =>
      refine ShowsChildrenOnly.silent (.inr (.inr (.inl kind))) (fun child hchild depth => ?_)
        hdepth
      have hempty := hleaf child (hbelow hchild child.mem_walk_self) (texts child hchild)
      refine ShowsChildrenOnly.silent (.inr (.inr (.inr (texts child hchild)))) ?_
      rw [hempty]
      exact fun _ hmem => (List.not_mem_nil hmem).elim

end Silence

theorem Node.IsNested.of_mem_nestNodes {node inner : Node} (h : node.IsNested)
    (hinner : inner ∈ node.nestNodes) : inner.IsNested ∧ inner ∈ node.walk := by
  have hchild : ∀ {node : Node}, node.kind ≠ .paragraph → node.IsNested →
      inner ∈ node.nestNodes → (∀ child ∈ node.children, inner ∈ child.nestNodes →
        inner.IsNested ∧ inner ∈ child.walk) → inner.IsNested ∧ inner ∈ node.walk := by
    intro node kind h hinner hbelow
    rw [nestNodes_of_ne kind] at hinner
    obtain rfl | hmem := List.mem_cons.mp hinner
    · exact ⟨h, inner.mem_walk_self⟩
    · obtain ⟨child, hchild, hin⟩ := List.mem_flatMap.mp hmem
      obtain ⟨hnested, hwalk⟩ := hbelow child hchild hin
      exact ⟨hnested, mem_walk_trans hwalk (mem_walk_of_mem_members
        (mem_members_of_children hchild))⟩
  induction h with
  | list kind items nested ih =>
      exact hchild (fun heq => by cases kind.symm.trans heq) (.list kind items nested) hinner ih
  | item kind held nested ih =>
      exact hchild (fun heq => by cases kind.symm.trans heq) (.item kind held nested) hinner ih
  | paragraph kind texts =>
      rw [nestNodes_of_paragraph kind, List.mem_singleton] at hinner
      subst hinner
      exact ⟨.paragraph kind texts, mem_walk_self _⟩

/-- What the rendering of a nest of lists shows. -/
structure Context.ShowsNest (context : Context) (list : Node) : Prop where
  /-- The lines that are not blank are the rows of the nest. -/
  rows : ∀ depth notes text later,
    (Markup.renderNode context depth list).run notes = some (text, later) →
      Markup.shownLines text = (list.nestRows context.options []).map Row.text
  /-- The lines of a paragraph in a row are those that the rendering of the paragraph shows. -/
  paragraphs : ∀ paragraph ∈ list.nestNodes, paragraph.kind = .paragraph →
    ∀ depth notes text later,
      (Markup.renderNode context depth paragraph).run notes = some (text, later) →
        Markup.shownLines text = paragraph.paragraphLines context.options
  /-- The lines in the rows are those of the paragraphs, in document order. -/
  lines : (list.nestRows context.options []).filterMap (·.entry.line?) =
    list.nestNodes.flatMap (Node.ownLines context.options)
  /-- The marks in the rows are those of the items with a checkbox, in document order. -/
  marks : (list.nestRows context.options []).filterMap (·.entry.mark?) =
    list.nestNodes.flatMap fun node => node.ownMark?.toList
  /-- When runs of text hold nothing, the nest and its paragraphs are rendered indeed. -/
  rendered :
    (∀ text ∈ list.walk, (∃ value, text.kind = .plainText value) → text.children = []) →
      ∀ node ∈ list.nestNodes, ∀ notes, ∃ text,
        (context.render node).run notes = some (text, notes)

theorem Context.showsNest (root : Node) (context : Context)
    (hindex : context.index = Index.ofTree root.prepare) (list : Node)
    (hlist : list ∈ root.prepare.walk) (type : ListType) (kind : list.kind = .plainList type)
    (h : list.IsNested) : context.ShowsNest list := by
  have hinner : ∀ inner ∈ list.nestNodes, inner.IsNested ∧ inner ∈ root.prepare.walk := by
    intro inner hin
    obtain ⟨hnested, hwalk⟩ := h.of_mem_nestNodes hin
    exact ⟨hnested, Node.mem_walk_trans hwalk hlist⟩
  constructor
  case rows =>
    intro depth notes text later hrun
    rw [← nestLines_plainList kind]
    exact (h.shownLines_eq hindex hlist ⟨notes, later, hrun⟩).2
  case paragraphs =>
    intro paragraph hparagraph hkind depth notes text later hrun
    obtain ⟨hnested, hwalk⟩ := hinner paragraph hparagraph
    rw [← nestLines_paragraph hkind]
    exact (hnested.shownLines_eq hindex hwalk ⟨notes, later, hrun⟩).2
  case lines => exact h.filterMap_line? []
  case marks => exact h.filterMap_mark? []
  case rendered =>
    intro hleaf node hnode
    obtain ⟨hnested, hwalk⟩ := hinner node hnode
    have hsize : node.walk.length ≤ context.depth := by
      rw [Context.depth, hindex, Index.size_ofTree]
      exact (Node.walk_sublist_of_mem hwalk).length_le
    have hbelow := (h.of_mem_nestNodes hnode).2
    exact hnested.silent (fun text htext => hleaf text (Node.mem_walk_trans htext hbelow)) hsize

section

open Node (document paragraph ofKind ofValue)

/-- A list of two items with checkboxes, the first of which starts with a list of its own. -/
def Node.tasks : Node :=
  document [ofKind (.plainList .unordered)
    [ofKind (.listItem .on none)
      [ofKind (.plainList .ordered) [ofKind (.listItem .none none) [paragraph [ofValue "x"]]],
        paragraph [ofValue "y"]],
    ofKind (.listItem .off none) [paragraph [ofValue " a\nb"]]]]

/-- The node of the prepared tree with a number. -/
def Node.tasksNode (id : Nat) : Node :=
  (Node.tasks.prepare.walk[id]?).getD default

theorem showsNest_tasks :
    let context := Context.ofTree Node.tasks.prepare {} []
    let list := Node.tasksNode 1
    list ∈ Node.tasks.prepare.walk ∧ list.kind = .plainList .unordered ∧ list.IsNested ∧
      context.ShowsNest list ∧
      (list.nestRows context.options []).map Row.text =
        ["* ☑".toList, "*# x".toList, "* y".toList, "* ☐ a".toList, "* b".toList] := by
  intro context list
  have hlist : list ∈ Node.tasks.prepare.walk :=
    List.mem_of_getElem? (show Node.tasks.prepare.walk[1]? = some list from rfl)
  have hpair : ∀ {P : Node → Prop} {first second : Node}, P first → P second →
      ∀ node ∈ [first, second], P node := fun hf hs =>
    List.forall_mem_cons.mpr ⟨hf, List.forall_mem_singleton.mpr hs⟩
  have hparagraph : ∀ id value, (Node.tasksNode id).kind = .paragraph →
      (Node.tasksNode id).children = [Node.tasksNode (id + 1)] →
      (Node.tasksNode (id + 1)).kind = .plainText value → (Node.tasksNode id).IsNested := by
    intro id value kind hchildren hvalue
    refine .paragraph kind ?_
    rw [hchildren]
    exact List.forall_mem_singleton.mpr ⟨value, hvalue⟩
  have hx : (Node.tasksNode 4).IsNested :=
    .item rfl (List.forall_mem_singleton.mpr (.inl rfl))
      (List.forall_mem_singleton.mpr (hparagraph 5 "x" rfl rfl rfl))
  have hinner : (Node.tasksNode 3).IsNested :=
    .list rfl (List.forall_mem_singleton.mpr ⟨.none, rfl⟩) (List.forall_mem_singleton.mpr hx)
  have hfirst : (Node.tasksNode 2).IsNested :=
    .item rfl (hpair (.inr ⟨.ordered, rfl⟩) (.inl rfl))
      (hpair hinner (hparagraph 7 "y" rfl rfl rfl))
  have hsecond : (Node.tasksNode 9).IsNested :=
    .item rfl (List.forall_mem_singleton.mpr (.inl rfl))
      (List.forall_mem_singleton.mpr (hparagraph 10 " a\nb" rfl rfl rfl))
  have hnested : list.IsNested :=
    .list rfl (hpair ⟨.on, rfl⟩ ⟨.off, rfl⟩)
      (hpair hfirst hsecond)
  have hrows : ((Node.tasksNode 1).nestRows {} []).map Row.text =
      ["* ☑".toList, "*# x".toList, "* y".toList, "* ☐ a".toList, "* b".toList] := by
    decide +kernel
  exact ⟨hlist, rfl, hnested,
    Context.showsNest Node.tasks context rfl list hlist .unordered rfl hnested, hrows⟩

end

end OutlineWiki
