import OutlineWiki.Proofs.Footnotes.Calls
import OutlineWiki.Proofs.Outline.Lookups
import OutlineWiki.Proofs.Rendering.Display
import OutlineWiki.Proofs.Rendering.Within
import OutlineWiki.Proofs.Text.LineEnds

/-!
Separators between footnote references.

A reference asks the index for the node before it, and not the list that is rendered. Every
list that a node shows is one that some node of the tree owns, also where a link leads to it
or the section of footnotes repeats it. So the index knows the node before the reference in
that very list. References that follow one another directly have a separator between any two
of them, and there are no others.
-/

namespace OutlineWiki

open Rendering

/-- The reference refers to the footnote with the number. -/
def Footnotes.Numbers (notes : Footnotes) (reference : Node) (number : Nat) : Prop :=
  ∃ footnote, reference.footnote? = some footnote ∧ notes.get? footnote = some number

theorem Footnotes.Numbers.mono {notes later : Footnotes} {reference : Node} {number : Nat}
    (h : notes.Numbers reference number) (hle : notes ≤ later) : later.Numbers reference number :=
  h.imp fun _ ⟨hf, hn⟩ => ⟨hf, Footnotes.get?_mono hle hn⟩

namespace Markup

variable {render : Node → Rendering (List Char)}

theorem renderAll_append (before after : List Node) :
    renderAll render (before ++ after) = do
      let first ← renderAll render before
      let rest ← renderAll render after
      return first ++ rest := by
  induction before with
  | nil => simp [renderAll]
  | cons node before ih =>
      simp only [List.cons_append, renderAll, ih, bind_assoc, pure_bind, List.append_assoc]

theorem renderAll_run_cons {node : Node} {nodes : List Node} {notes between later : Footnotes}
    {shown rest : List Char} (hnode : (render node).run notes = some (shown, between))
    (hrest : (renderAll render nodes).run between = some (rest, later)) :
    (renderAll render (node :: nodes)).run notes = some (shown ++ rest, later) := by
  rw [renderAll, run_bind, hnode, Option.bind_some, run_bind, hrest]
  rfl

/-- The marker of the footnote with a number, as the options format it. -/
def numberMarker (options : Options) (number : Nat) : List Char :=
  Text.fill options.footnoteReferenceFormat.toList [digits number]

/-- What a reference shows, with a space for each blank after it. Only if there is nothing to
show, there are no spaces either. -/
def spacedReference (reference : Node) (shown : List Char) : List Char :=
  if shown = [] then [] else shown ++ List.replicate (reference.postBlank.getD 0).toNat ' '

theorem withSpace_footnoteReference {reference : Node} {label : Option String}
    (kind : reference.kind = .footnoteReference label) (shown : List Char) :
    withSpace reference shown = spacedReference reference shown := by
  have hinline : reference.kind.isBlock = false := by rw [kind]; rfl
  rw [spacedReference]
  split
  · next hempty => exact withSpace_eq_nil_iff.mpr hempty
  · next hshown => exact withSpace_of_inline hinline hshown

/-- The markup of references with their numbers, each of them after another reference. -/
def separatedReferences (options : Options) (numbered : List (Node × Nat)) : List Char :=
  numbered.flatMap fun entry =>
    spacedReference entry.1 (options.footnoteSeparator.toList ++ numberMarker options entry.2)

/-- The markup of references with their numbers, the first of them after no reference. -/
def runOfReferences (options : Options) : List (Node × Nat) → List Char
  | [] => []
  | (reference, number) :: numbered =>
    spacedReference reference (numberMarker options number) ++
      separatedReferences options numbered

end Markup

namespace Context

open Markup

/-- Whether a list of nodes ends in a footnote reference. -/
def endsInReference (nodes : List Node) : Bool :=
  nodes.getLast?.any fun node => node.kind.isFootnoteReference

/-- The references are rendered one after another in the given way, which is given their numbers
in the registry after them. -/
def RendersReferences (context : Context) (depth : Nat) (notes : Footnotes)
    (references : List Node) (markup : List (Node × Nat) → List Char) : Prop :=
  ∃ numbers, List.Forall₂ (notes.meetAll references).Numbers references numbers ∧
    (renderAll (renderNode context depth) references).run notes =
      some (markup (references.zip numbers), notes.meetAll references)

/-- A reference of the list is shown with a separator before it exactly when there is another
reference just before it in the list. So references that follow one another are separated. -/
structure Separates (context : Context) (list : List Node) : Prop where
  reference : ∀ (before : List Node) (reference : Node) (after : List Node),
    list = before ++ reference :: after → reference.kind.isFootnoteReference = true →
      ∀ (depth : Nat) (notes : Footnotes), ∃ number,
        (notes.meet reference).Numbers reference number ∧
          (renderNode context (depth + 1) reference).run notes =
            some (spacedReference reference ((if endsInReference before then
              context.options.footnoteSeparator.toList else []) ++
                numberMarker context.options number), notes.meet reference)
  run : ∀ before references after : List Node, list = before ++ (references ++ after) →
    (∀ reference ∈ references, reference.kind.isFootnoteReference = true) →
      endsInReference before = false →
        ∀ (depth : Nat) (notes between : Footnotes) (text : List Char),
          (renderAll (renderNode context (depth + 1)) before).run notes = some (text, between) →
            ∃ numbers, List.Forall₂ (between.meetAll references).Numbers references numbers ∧
              (renderAll (renderNode context (depth + 1)) list).run notes =
                ((renderAll (renderNode context (depth + 1)) after).run
                  (between.meetAll references)).map fun rest =>
                    (text ++ (runOfReferences context.options (references.zip numbers) ++ rest.1),
                      rest.2)

variable {root : Node} {context : Context}

theorem renderNode_reference (context : Context) {reference : Node} (depth : Nat)
    (h : reference.kind.isFootnoteReference = true) (notes : Footnotes) :
    ∃ number, (notes.meet reference).Numbers reference number ∧
      (renderNode context (depth + 1) reference).run notes =
        some (spacedReference reference (referenceMarkup context reference number),
          notes.meet reference) := by
  obtain ⟨footnote, hf⟩ := Node.isFootnoteReference_iff.mp h
  obtain ⟨number, hn, hrun⟩ := footnoteReference_run context hf notes
  obtain ⟨label, kind⟩ := Node.exists_label hf
  have hdescends : descends reference.kind = false := by rw [kind]; rfl
  have hformat : format context (renderNode context depth) reference [] =
      footnoteReference context reference := by
    rw [format, kind]
  refine ⟨number, ⟨footnote, hf, hn⟩, ?_⟩
  rw [renderNode, renderWith_eq, contentsOf, hdescends, run_bind, if_neg Bool.false_ne_true,
    run_pure, Option.bind_some, run_bind, hformat, hrun, ← withSpace_footnoteReference kind]
  rfl

theorem endsInReference_concat {before : List Node} {reference : Node}
    (h : reference.kind.isFootnoteReference = true) :
    endsInReference (before ++ [reference]) = true := by
  rw [endsInReference, List.getLast?_concat, Option.any_some, h]

/-- A reference is rendered before others. -/
theorem RendersReferences.cons {depth : Nat} {notes : Footnotes} {reference : Node}
    {references : List Node} {number : Nat} {shown : List Char}
    {markup more : List (Node × Nat) → List Char}
    (hn : (notes.meet reference).Numbers reference number)
    (hrun : (renderNode context depth reference).run notes = some (shown, notes.meet reference))
    (hrest : context.RendersReferences depth (notes.meet reference) references more)
    (hmarkup : ∀ numbered, markup ((reference, number) :: numbered) = shown ++ more numbered) :
    context.RendersReferences depth notes (reference :: references) markup := by
  obtain ⟨numbers, hnumbers, hmore⟩ := hrest
  refine ⟨number :: numbers, .cons (hn.mono (Footnotes.le_meetAll _ references)) hnumbers, ?_⟩
  rw [List.zip_cons_cons, hmarkup]
  exact renderAll_run_cons hrun hmore

section Owned

variable (hindex : context.index = Index.ofTree root.prepare) {owner : Node}
  (ho : owner ∈ root.prepare.walk) {before after : List Node}
include hindex ho

/-- The index knows the node before a reference in the list of its owner. -/
theorem renderNode_reference_owned {reference : Node}
    (hl : before ++ reference :: after ∈ owner.lists)
    (h : reference.kind.isFootnoteReference = true) (depth : Nat) (notes : Footnotes) :
    ∃ number, (notes.meet reference).Numbers reference number ∧
      (renderNode context (depth + 1) reference).run notes =
        some (spacedReference reference ((if endsInReference before then
          context.options.footnoteSeparator.toList else []) ++
            numberMarker context.options number), notes.meet reference) := by
  obtain ⟨number, hn, hrun⟩ := renderNode_reference context depth h notes
  refine ⟨number, hn, hrun.trans ?_⟩
  rw [referenceMarkup, hindex, (Index.lookups_of_mem_lists ho hl).2.2.1]
  rfl

variable {references : List Node}

/-- References after a reference are shown with a separator before each. -/
theorem rendersReferences_separated (hl : before ++ (references ++ after) ∈ owner.lists)
    (h : ∀ reference ∈ references, reference.kind.isFootnoteReference = true)
    (hbefore : endsInReference before = true) (depth : Nat) (notes : Footnotes) :
    context.RendersReferences (depth + 1) notes references
      (separatedReferences context.options) := by
  induction references generalizing before notes with
  | nil => exact ⟨[], .nil, rfl⟩
  | cons reference references ih =>
      obtain ⟨hreference, hrest⟩ := List.forall_mem_cons.mp h
      obtain ⟨number, hn, hrun⟩ := renderNode_reference_owned hindex ho hl hreference depth notes
      have hlist : before ++ [reference] ++ (references ++ after) ∈ owner.lists := by
        rwa [List.append_assoc]
      rw [hbefore, if_pos rfl] at hrun
      exact .cons hn hrun (ih hlist hrest (endsInReference_concat hreference) _)
        fun numbered => List.flatMap_cons

/-- The first of references that follow one another is shown without a separator. -/
theorem rendersReferences_run (hl : before ++ (references ++ after) ∈ owner.lists)
    (h : ∀ reference ∈ references, reference.kind.isFootnoteReference = true)
    (hbefore : endsInReference before = false) (depth : Nat) (notes : Footnotes) :
    context.RendersReferences (depth + 1) notes references (runOfReferences context.options) := by
  cases references with
  | nil => exact ⟨[], .nil, rfl⟩
  | cons reference references =>
      obtain ⟨hreference, hrest⟩ := List.forall_mem_cons.mp h
      obtain ⟨number, hn, hrun⟩ := renderNode_reference_owned hindex ho hl hreference depth notes
      have hlist : before ++ [reference] ++ (references ++ after) ∈ owner.lists := by
        rwa [List.append_assoc]
      rw [hbefore, if_neg Bool.false_ne_true] at hrun
      exact .cons hn hrun (rendersReferences_separated hindex ho hlist hrest
        (endsInReference_concat hreference) depth _) fun numbered => rfl

theorem separates_of_mem_lists {list : List Node} (hl : list ∈ owner.lists) :
    context.Separates list where
  reference before reference after heq h depth notes := by
    subst heq
    exact renderNode_reference_owned hindex ho hl h depth notes
  run before references after heq h hbefore depth notes between text htext := by
    subst heq
    obtain ⟨numbers, hnumbers, hrun⟩ := rendersReferences_run hindex ho hl h hbefore depth between
    refine ⟨numbers, hnumbers, ?_⟩
    rw [renderAll_append, renderAll_append, run_bind, htext, Option.bind_some, run_bind, run_bind,
      hrun, Option.bind_some, run_bind]
    cases (renderAll (renderNode context (depth + 1)) after).run (between.meetAll references) <;>
      rfl

end Owned

/-- The lists of nodes that are rendered in the course of rendering a node, or as the text of the
footnote that it refers to. -/
inductive RendersList (context : Context) (node : Node) : List Node → Prop where
  | children (opens : node.OpensChildren) : RendersList context node node.children
  | title {info : HeadlineInfo} {title : List Node} (kind : node.kind = .headline info title) :
      RendersList context node title
  | tag {checkbox : Checkbox} {tag : List Node} (kind : node.kind = .listItem checkbox (some tag)) :
      RendersList context node tag
  | caption {caption : List Node} (shown : context.host.caption node = some caption) :
      RendersList context node caption
  | radio {target : Node} (leads : context.host.radioTarget node = some target) :
      RendersList context node target.children
  | image {block : Node} {caption : List Node}
      (stands : context.index.parentBlock? node = some block)
      (shown : context.host.caption block = some caption) : RendersList context node caption
  | text {nodes : List Node} (text : context.index.footnoteText? node = some nodes) :
      RendersList context node nodes

/-- Whatever is rendered stands in one of the lists. -/
theorem exists_rendersList {render : Node → Rendering (List Char)} {node shown : Node}
    (h : Shows context render node shown) :
    ∃ list, context.RendersList node list ∧ shown ∈ list := by
  cases h with
  | child opens mem => exact ⟨_, .children (.inl opens), mem⟩
  | part kind mem => exact ⟨_, .children (.inr ⟨_, _, kind⟩), mem⟩
  | title kind _ mem => exact ⟨_, .title kind, mem⟩
  | tag kind mem => exact ⟨_, .tag kind, mem⟩
  | caption _ shown mem => exact ⟨_, .caption shown, mem⟩
  | radio _ leads mem => exact ⟨_, .radio leads, mem⟩
  | image _ _ _ stands shown mem => exact ⟨_, .image stands shown, mem⟩

end Context

/-- The host answers with lists and nodes of the tree. -/
structure Host.AnswersFrom (host : Host) (tree : Node) : Prop where
  caption : ∀ node ∈ tree.walk, ∀ caption, host.caption node = some caption →
    ∃ owner ∈ tree.walk, caption ∈ owner.lists
  radio : ∀ node ∈ tree.walk, ∀ target, host.radioTarget node = some target → target ∈ tree.walk

theorem Survey.host_answersFrom (tree : Node) (options : Options)
    (externalIds : List (String × String)) :
    (Survey.ofTree tree options externalIds).host.AnswersFrom tree where
  caption node hn caption hcaption := by
    refine ⟨node, hn, ?_⟩
    have howned : node.caption = some caption := (Option.filter_eq_some_iff.mp hcaption).1
    simp [Node.lists, Parts.lists, Node.parts, howned]
  radio node hn target htarget := radioTarget_mem htarget

theorem Index.footnoteText?_mem_lists {tree reference : Node} {nodes : List Node}
    (hr : reference ∈ tree.walk) (h : (ofTree tree).footnoteText? reference = some nodes) :
    ∃ owner ∈ tree.walk, nodes ∈ owner.lists := by
  rw [footnoteText?] at h
  split at h
  · obtain ⟨definition, hd, rfl⟩ := Option.map_eq_some_iff.mp h
    exact ⟨definition, definition?_mem hd, definition.children_mem_lists⟩
  · split at h
    · cases h
    · cases h
      exact ⟨reference, hr, reference.children_mem_lists⟩
  · cases h

namespace Context

open Markup

/-- Each list that is rendered is one that a node of the tree owns. -/
theorem RendersList.mem_lists {context : Context} {tree node : Node} {list : List Node}
    (hindex : context.index = Index.ofTree tree) (hhost : context.host.AnswersFrom tree)
    (hn : node ∈ tree.walk) (h : context.RendersList node list) :
    ∃ owner ∈ tree.walk, list ∈ owner.lists := by
  cases h with
  | children _ => exact ⟨node, hn, node.children_mem_lists⟩
  | title kind | tag kind =>
      exact ⟨node, hn, by simp [Node.lists, Parts.lists, Node.parts, kind, Kind.lists]⟩
  | caption shown => exact hhost.caption node hn _ shown
  | @radio target leads =>
      exact ⟨target, hhost.radio node hn target leads, target.children_mem_lists⟩
  | image stands shown =>
      rw [hindex] at stands
      exact hhost.caption _ (Index.parentBlock?_mem stands) _ shown
  | text text =>
      rw [hindex] at text
      exact Index.footnoteText?_mem_lists hn text

/-- Separators stand between the references that directly follow one another in any list of a
prepared tree, whatever the host answers, and so in any list that an export renders. -/
theorem references_separated (root : Node) (options : Options) (host : Host) :
    let tree := root.prepare
    let context : Context := ⟨options, host, Index.ofTree tree⟩
    (∀ owner ∈ tree.walk, ∀ list ∈ owner.lists, context.Separates list) ∧
      (host.AnswersFrom tree → ∀ node ∈ tree.walk, ∀ list, context.RendersList node list →
        context.Separates list) ∧
      (∀ externalIds, (Survey.ofTree tree options externalIds).host.AnswersFrom tree) ∧
      ∀ (render : Node → Rendering (List Char)) (node shown : Node),
        Shows context render node shown → ∃ list, context.RendersList node list ∧ shown ∈ list := by
  intro tree context
  refine ⟨fun owner ho list hl => separates_of_mem_lists rfl ho hl, fun hhost node hn list h => ?_,
    fun externalIds => Survey.host_answersFrom tree options externalIds,
    fun render node shown h => exists_rendersList h⟩
  obtain ⟨owner, ho, hl⟩ := h.mem_lists rfl hhost hn
  exact separates_of_mem_lists rfl ho hl

end Context

section

open Node (document paragraph ofValue footnoteReference)

/-- A paragraph with three references in a row, the second of them with a blank after it. -/
def Node.referenceRow : Node :=
  document [paragraph [ofValue "x", footnoteReference "a", (footnoteReference "b").withPostBlank 1,
    footnoteReference "a", ofValue "y"]]

/-- The node of the prepared tree with a number. -/
def Node.rowNode (id : Nat) : Node :=
  (Node.referenceRow.prepare.walk[id]?).getD default

open Markup in
theorem references_separated_three :
    let tree := Node.referenceRow.prepare
    let context := Context.ofTree tree {} []
    let row := Node.rowNode 1
    let references := [Node.rowNode 3, Node.rowNode 4, Node.rowNode 5]
    let notes := Footnotes.meetAll {} references
    let text := "x<sup>1</sup><sup>, </sup><sup>2</sup> <sup>, </sup><sup>1</sup>y".toList
    context.host.AnswersFrom tree ∧ row ∈ tree.walk ∧ context.RendersList row row.children ∧
      row.children = [Node.rowNode 2] ++ (references ++ [Node.rowNode 6]) ∧
      (renderAll (renderNode context 1) row.children).run {} = some (text, notes) ∧
      ∃ numbers, List.Forall₂ notes.Numbers references numbers ∧
        text = "x".toList ++ (runOfReferences {} (references.zip numbers) ++ "y".toList) := by
  have hrun : (renderAll (renderNode (Context.ofTree Node.referenceRow.prepare {} []) 1)
      (Node.rowNode 1).children).run {} =
        some ("x<sup>1</sup><sup>, </sup><sup>2</sup> <sup>, </sup><sup>1</sup>y".toList,
          Footnotes.meetAll {} [Node.rowNode 3, Node.rowNode 4, Node.rowNode 5]) := by
    rfl
  intro tree context row references notes text
  obtain ⟨_, hlists, hhost, _⟩ := Context.references_separated Node.referenceRow {} context.host
  have hrow : row ∈ tree.walk :=
    List.mem_of_getElem? (show Node.referenceRow.prepare.walk[1]? = some row from rfl)
  have hchildren : context.RendersList row row.children := .children (.inl rfl)
  have hparts : row.children = [Node.rowNode 2] ++ (references ++ [Node.rowNode 6]) := rfl
  have hlast : (renderAll (renderNode context 1) [Node.rowNode 6]).run notes =
      some ("y".toList, notes) := by rfl
  have hreferences : ∀ reference ∈ references, reference.kind.isFootnoteReference = true := by
    simp only [references, List.forall_mem_cons]
    exact ⟨rfl, rfl, rfl, List.forall_mem_nil _⟩
  obtain ⟨numbers, hnumbers, hshown⟩ := (hlists (hhost []) row hrow _ hchildren).run _ _ _ hparts
    hreferences rfl 0 {} {} "x".toList rfl
  have hboth := hrun.symm.trans (hshown.trans (congrArg (Option.map _) hlast))
  exact ⟨hhost [], hrow, hchildren, hparts, hrun, numbers, hnumbers,
    congrArg (·.1) (Option.some.inj hboth)⟩

end

end OutlineWiki
