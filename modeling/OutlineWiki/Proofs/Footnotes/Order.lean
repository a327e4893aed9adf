import OutlineWiki.Outline.Build
import OutlineWiki.Proofs.Outline.Numbering
import OutlineWiki.Proofs.Outline.References
import OutlineWiki.Proofs.Rendering.Within

/-!
The order in which a rendering numbers footnotes.

Without links that show another node in their place, the references met by a rendering
are those that the node shows, contents before heads. They are met one after another, so
footnotes are numbered in the order of their first references in that list. It is not
document order: a title or a caption stands before the contents and is rendered after them.
-/

namespace OutlineWiki
namespace Rendering

variable {α β : Type}

/-- The rendering ends in every registry, after meeting the references in order. -/
def Meets (rendering : Rendering α) (references : List Node) : Prop :=
  ∀ notes, ∃ result, rendering.run notes = some (result, notes.meetAll references)

theorem meets_pure (result : α) : Meets (pure result) [] :=
  fun _ => ⟨result, rfl⟩

theorem meets_bind {first : Rendering α} {next : α → Rendering β}
    {references more : List Node} (hfirst : Meets first references)
    (hnext : ∀ result, first.Gives result → Meets (next result) more) :
    Meets (first >>= next) (references ++ more) := by
  intro notes
  obtain ⟨result, hrun⟩ := hfirst notes
  obtain ⟨value, hrest⟩ := hnext result ⟨notes, _, hrun⟩ (notes.meetAll references)
  refine ⟨value, ?_⟩
  rw [run_bind, hrun, Footnotes.meetAll_append]
  exact hrest

/-- What is done with the result of a rendering meets no further references. -/
theorem meets_map {rendering : Rendering α} {references : List Node} (f : α → β)
    (h : Meets rendering references) :
    Meets (rendering >>= fun result => pure (f result)) references := by
  simpa only [List.append_nil] using meets_bind h fun result _ => meets_pure (f result)

end Rendering

open Rendering

/-- The node is a link that leads elsewhere in the tree, to a radio target or a caption. -/
def Context.Detours (context : Context) (node : Node) : Prop :=
  (∃ path, node.kind = .link .radio path) ∨
    ∃ type path depth contents, node.kind = .link type path ∧
      (Markup.renderAll (Markup.renderNode context depth) node.children).Gives contents ∧
      Markup.isImage context type path (Markup.description contents) = true

theorem Context.not_detours {context : Context} {node : Node}
    (h : ∀ type path, node.kind ≠ .link type path) : ¬ context.Detours node := by
  rintro (⟨path, hkind⟩ | ⟨type, path, _, _, hkind, _⟩)
  · exact h .radio path hkind
  · exact h type path hkind

namespace Markup

variable {context : Context} {render : Node → Rendering (List Char)}
  {references : Node → List Node}

theorem renderAll_meets {nodes : List Node}
    (h : ∀ node ∈ nodes, Meets (render node) (references node)) :
    Meets (renderAll render nodes) (nodes.flatMap references) := by
  induction nodes with
  | nil => exact meets_pure []
  | cons node nodes ih =>
      rw [List.flatMap_cons]
      apply meets_bind (h node List.mem_cons_self)
      intro first _
      exact meets_map _ (ih fun node hn => h node (List.mem_cons_of_mem _ hn))

theorem renderCaption_meets {caption : Option (List Node)}
    (h : ∀ node ∈ caption.getD [], Meets (render node) (references node)) :
    Meets (renderCaption render caption) ((caption.getD []).flatMap references) := by
  cases caption with
  | none => exact meets_pure none
  | some nodes => exact meets_map _ (renderAll_meets h)

theorem renderParts_meets {nodes : List Node}
    (h : ∀ node ∈ nodes, Meets (render node) (references node)) :
    Meets (renderParts render nodes) (nodes.flatMap references) := by
  induction nodes with
  | nil => exact meets_pure []
  | cons node nodes ih =>
      rw [List.flatMap_cons]
      apply meets_bind (h node List.mem_cons_self)
      intro first _
      exact meets_map _ (ih fun node hn => h node (List.mem_cons_of_mem _ hn))

theorem headline_meets {info : HeadlineInfo} {title : List Node} {contents : List Char}
    (h : ∀ node ∈ title, Meets (render node) (references node)) :
    Meets (headline context render info title contents)
      (if info.footnoteSection then [] else title.flatMap references) := by
  rw [headline]
  split
  · exact meets_pure []
  · exact meets_map _ (renderAll_meets h)

theorem listItem_meets {node : Node} {checkbox : Checkbox} {tag : Option (List Node)}
    (htag : ∀ other ∈ tag.getD [], Meets (render other) (references other))
    (hchildren : ∀ child ∈ node.children, Meets (render child) (references child)) :
    Meets (listItem context render node checkbox tag)
      ((tag.getD []).flatMap references ++ node.children.flatMap references) :=
  meets_bind (renderCaption_meets htag) fun _ _ => meets_map _ (renderParts_meets hchildren)

theorem shownCaption?_getD (node : Node) :
    node.shownCaption?.getD [] = node.caption.getD [] := by
  rw [Node.shownCaption?]
  cases node.caption with
  | none => rfl
  | some caption => cases caption <;> rfl

theorem table_meets {node : Node} {contents : List Char}
    (hcaption : context.host.caption node = node.shownCaption?)
    (h : ∀ other ∈ node.caption.getD [], Meets (render other) (references other)) :
    Meets (table context render node .rows contents)
      ((node.caption.getD []).flatMap references) := by
  rw [table]
  rw [hcaption]
  rw [← shownCaption?_getD] at h ⊢
  exact meets_map _ (renderCaption_meets h)

theorem footnoteReference_meets (context : Context) (node : Node) :
    Meets (footnoteReference context node) [node] := by
  intro notes
  change ∃ result, _ = some (result, notes.meet node)
  cases hf : node.footnote? with
  | none =>
      refine ⟨[], ?_⟩
      rw [footnoteReference_run_other context hf, Footnotes.meet, Footnotes.number_of_other hf]
  | some footnote =>
      obtain ⟨number, _, hrun⟩ := footnoteReference_run context hf notes
      exact ⟨_, hrun⟩

theorem link_meets {node : Node} {type : LinkType} {path : String} {depth : Nat}
    {contents : List Char} (kind : node.kind = .link type path)
    (gives : (renderAll (renderNode context depth) node.children).Gives contents)
    (direct : ¬ context.Detours node) :
    Meets (link context (renderNode context depth) node type path contents) [] := by
  have hradio : type ≠ .radio := fun h => direct (.inl ⟨path, by rw [kind, h]⟩)
  have himage : ¬ isImage context type path (description contents) = true :=
    fun h => direct (.inr ⟨type, path, depth, contents, kind, gives, h⟩)
  have hrest : Meets
      (if isImage context type path (description contents) then
        image context (renderNode context depth) node type path.toList
      else
        pure (externalLink context.options type path.toList (description contents))) [] := by
    rw [if_neg himage]
    exact meets_pure _
  cases type with
  | customId | id | coderef | fuzzy => exact meets_pure _
  | radio => exact absurd rfl hradio
  | _ => exact hrest

theorem renderWith_meets {node : Node} {first more : List Node}
    (hcontents : Meets (contentsOf render node) first)
    (hformat : ∀ contents, (contentsOf render node).Gives contents →
      Meets (format context render node contents) more) :
    Meets (renderWith context render node) (first ++ more) := by
  rw [renderWith_eq]
  exact meets_bind hcontents fun contents hgives => meets_map _ (hformat contents hgives)

/-- A node meets the references that it shows, given that the nodes it owns do. -/
theorem renderNode_succ_meets {node : Node} {depth : Nat}
    (hcaption : context.host.caption node = node.shownCaption?)
    (direct : ¬ context.Detours node)
    (h : ∀ member ∈ node.members,
      Meets (renderNode context depth member) (member.shownReferences true)) :
    Meets (renderNode context (depth + 1) node) (node.shownReferences true) := by
  have hchildren := fun child hc => h child (Node.mem_members_of_children hc)
  have hcontents : Meets (contentsOf (renderNode context depth) node)
      (if descends node.kind then node.children.flatMap (Node.shownReferences true) else []) := by
    rw [contentsOf]
    split
    · exact renderAll_meets hchildren
    · exact meets_pure []
  have hnode : ∀ {more : List Node}, (∀ contents,
      (contentsOf (renderNode context depth) node).Gives contents →
        Meets (format context (renderNode context depth) node contents) more) → _ :=
    fun hformat => renderWith_meets hcontents hformat
  change Meets (renderWith context (renderNode context depth) node) _
  rw [Node.shownReferences_eq]
  simp only [format] at hnode
  cases kind : node.kind with
  | footnoteReference label =>
      rw [kind] at hnode
      exact hnode fun contents _ => footnoteReference_meets context node
  | headline info title =>
      rw [kind] at hnode
      have htitle := hnode fun contents _ => headline_meets
        fun other ho => h other (Node.mem_members_of_title kind ho)
      cases hs : info.footnoteSection <;> simpa [descends, hs, Node.arrange] using htitle
  | listItem checkbox tag =>
      rw [kind] at hnode
      refine hnode fun contents _ => listItem_meets (fun other ho => ?_) hchildren
      cases tag with
      | none => cases ho
      | some tag => exact h other (Node.mem_members_of_tag kind ho)
  | table type value =>
      rw [kind] at hnode
      cases type with
      | drawing => simpa [descends] using hnode fun contents _ => meets_pure _
      | rows =>
          refine hnode fun contents _ => table_meets hcaption fun other ho => ?_
          cases hc : node.caption with
          | none => rw [hc] at ho; cases ho
          | some caption =>
              rw [hc] at ho
              exact h other (Node.mem_members_of_caption hc ho)
  | link type path =>
      rw [kind] at hnode
      have hlink := hnode fun contents hgives => link_meets kind
        (by simpa only [contentsOf, kind, descends, if_true] using hgives) direct
      simpa [descends] using hlink
  | _ =>
      rw [kind] at hnode
      simpa [descends] using hnode fun contents _ => meets_pure _

/-- Within a depth that suffices for the tree, a rendering ends and meets what is shown. -/
theorem renderNode_meets {depth : Nat} {node : Node}
    (hcaption : ∀ other, context.host.caption other = other.shownCaption?)
    (direct : ∀ other ∈ node.walk, ¬ context.Detours other)
    (hdepth : node.walk.length ≤ depth) :
    Meets (renderNode context depth node) (node.shownReferences true) := by
  induction depth generalizing node with
  | zero =>
      rw [Node.walk_eq, List.length_cons] at hdepth
      omega
  | succ depth ih =>
      apply renderNode_succ_meets (hcaption node) (direct node node.mem_walk_self)
      intro member hm
      apply ih (fun other ho => direct other (Node.mem_walk_of_mem_member ho hm))
      have hle : member.walk.length ≤ (node.members.flatMap Node.walk).length :=
        (List.flatMap_def ▸ List.sublist_flatten_of_mem (List.mem_map_of_mem hm)).length_le
      rw [Node.walk_eq, List.length_cons] at hdepth
      omega

end Markup

/-- The reference is the one with the least number among those shown to a footnote. -/
structure Node.IsFirst (root : Node) (footnote : Footnote) (reference : Node) : Prop where
  shown : reference ∈ root.shownReferences false
  refers : reference.footnote? = some footnote
  least : ∀ other ∈ root.shownReferences false, other.footnote? = some footnote →
    reference.id ≤ other.id

namespace Node

theorem shownReferences_increase (root : Node) :
    (root.prepare.shownReferences false).Pairwise fun node later => node.id < later.id :=
  root.ids_increase.sublist (shownReferences_sublist_walk root.prepare)

theorem IsFirst.getElem_firstPlace {root reference : Node} {footnote : Footnote}
    (h : root.prepare.IsFirst footnote reference) :
    ∃ hlt : Footnotes.firstPlace (root.prepare.shownReferences false) footnote <
        (root.prepare.shownReferences false).length,
      (root.prepare.shownReferences false)[Footnotes.firstPlace
        (root.prepare.shownReferences false) footnote] = reference := by
  obtain ⟨place, hlt, rfl⟩ := List.getElem_of_mem h.shown
  have hle : Footnotes.firstPlace (root.prepare.shownReferences false) footnote ≤ place :=
    Nat.le_of_not_lt fun hp => by
      have hnot := List.not_of_lt_findIdx hp
      simp [h.refers] at hnot
  have hfirst := Nat.lt_of_le_of_lt hle hlt
  refine ⟨hfirst, ?_⟩
  obtain heq | hless := Nat.eq_or_lt_of_le hle
  · simp only [heq]
  · have hid := List.pairwise_iff_getElem.mp root.shownReferences_increase _ _ hfirst hlt hless
    have hrefers := eq_of_beq (List.findIdx_getElem (w := hfirst))
    exact absurd (h.least _ (List.getElem_mem hfirst) hrefers) (Nat.not_le_of_lt hid)

/-- The first references stand in document order as their numbers say. -/
theorem IsFirst.id_lt_iff {root reference other : Node} {first second : Footnote}
    (hr : root.prepare.IsFirst first reference) (ho : root.prepare.IsFirst second other) :
    reference.id < other.id ↔
      Footnotes.firstPlace (root.prepare.shownReferences false) first <
        Footnotes.firstPlace (root.prepare.shownReferences false) second := by
  obtain ⟨hlt, heq⟩ := hr.getElem_firstPlace
  obtain ⟨hlt', heq'⟩ := ho.getElem_firstPlace
  have hids := List.pairwise_iff_getElem.mp root.shownReferences_increase
  constructor
  · intro hid
    apply Nat.lt_of_not_le
    intro hle
    obtain hp | hp := Nat.eq_or_lt_of_le hle
    · simp only [hp] at heq'
      rw [← heq, ← heq'] at hid
      exact Nat.lt_irrefl _ hid
    · have hback := hids _ _ hlt' hlt hp
      rw [heq, heq'] at hback
      exact Nat.lt_asymm hid hback
  · intro hp
    have hid := hids _ _ hlt hlt' hp
    rwa [heq, heq'] at hid

/-- A footnote that is shown later and yet comes first with contents before heads is
referred to below a node with the other one's first reference at its head. -/
theorem IsFirst.overtaken {root reference other : Node} {first second : Footnote}
    (hr : root.prepare.IsFirst first reference) (ho : root.prepare.IsFirst second other)
    (hid : reference.id < other.id)
    (h : Footnotes.firstPlace (root.prepare.shownReferences true) second ≤
      Footnotes.firstPlace (root.prepare.shownReferences true) first) :
    ∃ owner ∈ root.prepare.walk, reference ∈ owner.head.flatMap (shownReferences true) ∧
      ∃ earlier ∈ owner.children.flatMap (shownReferences true),
        earlier.footnote? = some second := by
  obtain ⟨place, hlt, hplace⟩ := List.getElem_of_mem (mem_shownReferences_iff.mpr hr.shown)
  have hle : Footnotes.firstPlace (root.prepare.shownReferences true) first ≤ place :=
    Nat.le_of_not_lt fun hp => by
      have hnot := List.not_of_lt_findIdx hp
      simp [hplace, hr.refers] at hnot
  have hlt' : Footnotes.firstPlace (root.prepare.shownReferences true) second <
      (root.prepare.shownReferences true).length := by omega
  have hrefers := eq_of_beq (List.findIdx_getElem (w := hlt'))
  have hleast := ho.least ((root.prepare.shownReferences true)[Footnotes.firstPlace
    (root.prepare.shownReferences true) second]) (mem_shownReferences_iff.mp
      (List.getElem_mem hlt')) hrefers
  have hne : Footnotes.firstPlace (root.prepare.shownReferences true) second ≠ place := by
    intro heq
    simp only [heq, hplace] at hleast
    omega
  have hpair := List.pairwise_iff_getElem.mp
    (shownReferences_pairwise (fun _ h => h) root.ids_increase) _ _ hlt' hlt (by omega)
  rw [hplace] at hpair
  obtain hback | ⟨owner, howner, hcontents, hhead⟩ := hpair
  · exact absurd (Nat.lt_of_lt_of_le hid hleast) (Nat.lt_asymm hback)
  · exact ⟨owner, howner, hhead, _, hcontents, hrefers⟩

end Node

/-- Without detours, a body numbers all footnotes that it shows, in the order of their first
references with contents before heads. In document order a footnote comes first exactly
when it does with heads before contents. So the order of numbers is document order, unless
the first reference to a footnote stands at the head of a node, in a title or a caption,
and the contents of this node refer to the other footnote. -/
theorem Context.render_numbers (root : Node) (options : Options)
    (externalIds : List (String × String))
    (direct : ∀ node ∈ root.prepare.walk,
      ¬ (Context.ofTree root.prepare options externalIds).Detours node) :
    ∃ body notes,
      ((Context.ofTree root.prepare options externalIds).render root.prepare).run {} =
        some (body, notes) ∧
      (∀ footnote, (notes.get? footnote).isSome = true ↔
        ∃ reference ∈ root.prepare.shownReferences false,
          reference.footnote? = some footnote) ∧
      ∀ first second i j, notes.get? first = some i → notes.get? second = some j →
        (i < j ↔ Footnotes.firstPlace (root.prepare.shownReferences true) first <
          Footnotes.firstPlace (root.prepare.shownReferences true) second) ∧
        ∀ reference other, root.prepare.IsFirst first reference →
          root.prepare.IsFirst second other →
            (reference.id < other.id ↔
              Footnotes.firstPlace (root.prepare.shownReferences false) first <
                Footnotes.firstPlace (root.prepare.shownReferences false) second) ∧
            (reference.id < other.id → i < j ∨
              ∃ owner ∈ root.prepare.walk,
                reference ∈ owner.head.flatMap (Node.shownReferences true) ∧
                ∃ earlier ∈ owner.children.flatMap (Node.shownReferences true),
                  earlier.footnote? = some second) := by
  obtain ⟨body, hbody⟩ := Markup.renderNode_meets (fun _ => rfl) direct
    (Nat.le_of_eq (Index.size_ofTree root.prepare).symm) {}
  refine ⟨body, _, hbody, fun footnote => ?_, fun first second i j hi hj => ⟨?_, ?_⟩⟩
  · rw [Footnotes.get?_meetAll_isSome_iff]
    simp only [Node.mem_shownReferences_iff]
    exact or_iff_right (fun h => by cases h)
  · exact Footnotes.lt_iff_firstPlace_lt hi hj
  · intro reference other hr ho
    refine ⟨hr.id_lt_iff ho, fun hid => ?_⟩
    obtain hlt | hle := Nat.lt_or_ge
      (Footnotes.firstPlace (root.prepare.shownReferences true) first)
      (Footnotes.firstPlace (root.prepare.shownReferences true) second)
    · exact .inl ((Footnotes.lt_iff_firstPlace_lt hi hj).mpr hlt)
    · exact .inr (hr.overtaken ho hid hle)

section

open Node (document paragraph footnoteReference ofKind)

/-- A headline with a footnote in its title and another one in its contents. -/
def Node.titledNotes : Node :=
  document
    [ofKind (.headline { level := 1 } [footnoteReference "title"])
      [paragraph [footnoteReference "text"]]]

theorem render_numbers_titled :
    let root := Node.titledNotes.prepare
    ∃ body notes, ((Context.ofTree root {} []).render root).run {} = some (body, notes) ∧
      body = "= <sup>2</sup> =\n<sup>1</sup>\n\n".toList ∧
      notes.get? (.labelled "title") = some 2 ∧ notes.get? (.labelled "text") = some 1 ∧
      ∃ reference other, root.IsFirst (.labelled "title") reference ∧
        root.IsFirst (.labelled "text") other ∧ reference.id < other.id ∧
        ∃ owner ∈ root.walk, reference ∈ owner.head.flatMap (Node.shownReferences true) ∧
          ∃ earlier ∈ owner.children.flatMap (Node.shownReferences true),
            earlier.footnote? = some (.labelled "text") := by
  intro root
  obtain ⟨body, notes, hrun, _, horder⟩ := Context.render_numbers Node.titledNotes {} []
    fun node hn => Context.not_detours fun type path hkind => by
      have hnone : ∀ node ∈ root.walk, node.linkPath? = none := by decide +kernel
      have hpath := hnone node hn
      rw [Node.linkPath?, hkind] at hpath
      cases hpath
  have hresult : (((Context.ofTree root {} []).render root).run {}).map
      (fun result => (result.1, result.2.get? (.labelled "title"),
        result.2.get? (.labelled "text"))) =
        some ("= <sup>2</sup> =\n<sup>1</sup>\n\n".toList, some 2, some 1) := by
    decide +kernel
  rw [hrun] at hresult
  simp only [Option.map_some, Option.some.injEq, Prod.mk.injEq] at hresult
  obtain ⟨hbody, htitle, htext⟩ := hresult
  have hshown : 1 < (root.shownReferences false).length := by decide +kernel
  have hid : (root.shownReferences false)[0].id < (root.shownReferences false)[1].id := by
    decide +kernel +revert
  have hleast : ∀ other ∈ root.shownReferences false,
      (root.shownReferences false)[0].id ≤ other.id := by
    decide +kernel +revert
  have hleast' : ∀ other ∈ root.shownReferences false,
      other.footnote? = some (.labelled "text") →
        (root.shownReferences false)[1].id ≤ other.id := by
    decide +kernel +revert
  have hfirst : root.IsFirst (.labelled "title") (root.shownReferences false)[0] :=
    ⟨List.getElem_mem _, rfl, fun other ho _ => hleast other ho⟩
  have hother : root.IsFirst (.labelled "text") (root.shownReferences false)[1] :=
    ⟨List.getElem_mem _, rfl, hleast'⟩
  obtain hlt | howner := ((horder _ _ 2 1 htitle htext).2 _ _ hfirst hother).2 hid
  · exact absurd hlt (by decide)
  · exact ⟨body, notes, hrun, hbody, htitle, htext, _, _, hfirst, hother, hid, howner⟩

end

end OutlineWiki
