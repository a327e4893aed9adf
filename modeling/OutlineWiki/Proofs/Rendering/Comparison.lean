import OutlineWiki.Markup.Render

/-!
Comparing two renderings of a node.

The markup of a node is put together from renderings of other nodes, by sequencing
alone. So whatever relates two renderings step by step relates the renderings of a node
as soon as it relates those of the nodes that are shown in it. This is proved once for
every kind of node. Facts about a single rendering are the comparison with itself.
-/

namespace OutlineWiki
namespace Rendering

variable {α β : Type}

/-- The rendering can end with the given result. -/
def Gives (rendering : Rendering α) (result : α) : Prop :=
  ∃ notes later, rendering.run notes = some (result, later)

theorem run_pure (result : α) (notes : Footnotes) :
    (pure result : Rendering α).run notes = some (result, notes) :=
  rfl

theorem run_bind (rendering : Rendering α) (next : α → Rendering β) (notes : Footnotes) :
    (rendering >>= next).run notes =
      (rendering.run notes).bind fun result => (next result.1).run result.2 :=
  rfl

theorem run_get_bind (next : Footnotes → Rendering β) (notes : Footnotes) :
    (get >>= next).run notes = (next notes).run notes :=
  rfl

/-- A sequence that ends has a first part that ends and a second one that ends after it. -/
theorem run_bind_eq_some {rendering : Rendering α} {next : α → Rendering β}
    {notes final : Footnotes} {result : β}
    (h : (rendering >>= next).run notes = some (result, final)) :
    ∃ first later, rendering.run notes = some (first, later) ∧
      (next first).run later = some (result, final) := by
  rw [run_bind] at h
  obtain ⟨⟨first, later⟩, hfirst, hnext⟩ := Option.bind_eq_some_iff.mp h
  exact ⟨first, later, hfirst, hnext⟩

theorem run_pure_eq_some {value result : α} {notes final : Footnotes}
    (h : (pure value : Rendering α).run notes = some (result, final)) :
    result = value ∧ final = notes := by
  rw [run_pure] at h
  cases h
  exact ⟨rfl, rfl⟩

end Rendering

/-- A relation between renderings that holds of sequences when it holds of their parts. -/
structure Comparison where
  Rel : {α : Type} → Rendering α → Rendering α → Prop
  pure : ∀ {α : Type} (result : α), Rel (Pure.pure result) (Pure.pure result)
  bind : ∀ {α β : Type} {first other : Rendering α} {next more : α → Rendering β},
    Rel first other → (∀ result, first.Gives result → Rel (next result) (more result)) →
      Rel (first >>= next) (other >>= more)

namespace Markup

/-- The description of a link with the given contents. -/
def description (contents : List Char) : Option (List Char) :=
  if (Text.trim contents).isEmpty then none else some (Text.trim contents)

/-- The markup of the node contains that of the other node, given how nodes are rendered. -/
inductive Shows (context : Context) (render : Node → Rendering (List Char)) (node : Node) :
    Node → Prop where
  | child {other : Node} (descends : descends node.kind = true) (mem : other ∈ node.children) :
      Shows context render node other
  | part {other : Node} {checkbox : Checkbox} {tag : Option (List Node)}
      (kind : node.kind = .listItem checkbox tag) (mem : other ∈ node.children) :
      Shows context render node other
  | title {other : Node} {info : HeadlineInfo} {title : List Node}
      (kind : node.kind = .headline info title) (shown : info.footnoteSection = false)
      (mem : other ∈ title) : Shows context render node other
  | tag {other : Node} {checkbox : Checkbox} {tag : List Node}
      (kind : node.kind = .listItem checkbox (some tag)) (mem : other ∈ tag) :
      Shows context render node other
  | caption {other : Node} {value : Option String} {caption : List Node}
      (kind : node.kind = .table .rows value)
      (shown : context.host.caption node = some caption) (mem : other ∈ caption) :
      Shows context render node other
  | radio {other target : Node} {path : String} (kind : node.kind = .link .radio path)
      (leads : context.host.radioTarget node = some target) (mem : other ∈ target.children) :
      Shows context render node other
  | image {other block : Node} {type : LinkType} {path : String} {contents : List Char}
      {caption : List Node} (kind : node.kind = .link type path)
      (gives : (renderAll render node.children).Gives contents)
      (image : isImage context type path (description contents) = true)
      (stands : context.index.parentBlock? node = some block)
      (shown : context.host.caption block = some caption) (mem : other ∈ caption) :
      Shows context render node other

section

variable (relation : Comparison) {context : Context}
  {render other : Node → Rendering (List Char)}

theorem renderAll_rel {nodes : List Node}
    (h : ∀ node ∈ nodes, relation.Rel (render node) (other node)) :
    relation.Rel (renderAll render nodes) (renderAll other nodes) := by
  induction nodes with
  | nil => exact relation.pure []
  | cons node nodes ih =>
      apply relation.bind (h node List.mem_cons_self)
      intro first _
      apply relation.bind (ih fun node hn => h node (List.mem_cons_of_mem _ hn))
      exact fun rest _ => relation.pure _

theorem renderCaption_rel {caption : Option (List Node)}
    (h : ∀ nodes, caption = some nodes →
      ∀ node ∈ nodes, relation.Rel (render node) (other node)) :
    relation.Rel (renderCaption render caption) (renderCaption other caption) := by
  cases caption with
  | none => exact relation.pure none
  | some nodes =>
      exact relation.bind (renderAll_rel relation (h nodes rfl)) fun text _ => relation.pure _

theorem renderParts_rel {nodes : List Node}
    (h : ∀ node ∈ nodes, relation.Rel (render node) (other node)) :
    relation.Rel (renderParts render nodes) (renderParts other nodes) := by
  induction nodes with
  | nil => exact relation.pure []
  | cons node nodes ih =>
      apply relation.bind (h node List.mem_cons_self)
      intro first _
      apply relation.bind (ih fun node hn => h node (List.mem_cons_of_mem _ hn))
      exact fun rest _ => relation.pure _

theorem link_rel {node : Node} {type : LinkType} {path : String} {contents : List Char}
    (hradio : type = .radio → ∀ target, context.host.radioTarget node = some target →
      ∀ shown ∈ target.children, relation.Rel (render shown) (other shown))
    (himage : isImage context type path (description contents) = true →
      ∀ block caption, context.index.parentBlock? node = some block →
        context.host.caption block = some caption →
          ∀ shown ∈ caption, relation.Rel (render shown) (other shown)) :
    relation.Rel (link context render node type path contents)
      (link context other node type path contents) := by
  have hrest : relation.Rel
      (if isImage context type path (description contents) then
        image context render node type path.toList
      else
        pure (externalLink context.options type path.toList (description contents)))
      (if isImage context type path (description contents) then
        image context other node type path.toList
      else
        pure (externalLink context.options type path.toList (description contents))) := by
    split
    · next hshown =>
        refine relation.bind (renderCaption_rel relation fun nodes hnodes => ?_)
          fun caption _ => relation.pure _
        obtain ⟨block, hblock, hcaption⟩ := Option.bind_eq_some_iff.mp hnodes
        exact himage hshown block nodes hblock hcaption
    · exact relation.pure _
  cases type with
  | customId | id | coderef | fuzzy => exact relation.pure _
  | radio =>
      simp only [link, radioLink]
      split
      · exact relation.pure _
      · next target htarget => exact renderAll_rel relation (hradio rfl target htarget)
  | _ => exact hrest

theorem format_rel {node : Node} {contents : List Char}
    (gives : descends node.kind = true → (renderAll render node.children).Gives contents)
    (h : ∀ shown, Shows context render node shown → relation.Rel (render shown) (other shown))
    (hreference : node.kind.isFootnoteReference = true →
      relation.Rel (footnoteReference context node) (footnoteReference context node)) :
    relation.Rel (format context render node contents) (format context other node contents) := by
  simp only [format]
  cases kind : node.kind with
  | headline info title =>
      change relation.Rel (headline context render info title contents)
        (headline context other info title contents)
      simp only [headline]
      split
      · exact relation.pure _
      · next hsection =>
          refine relation.bind (renderAll_rel relation fun shown hs => ?_)
            fun _ _ => relation.pure _
          exact h shown (.title kind (by simpa using hsection) hs)
  | listItem checkbox tag =>
      refine relation.bind (renderCaption_rel relation fun nodes hnodes shown hs => ?_)
        fun _ _ => ?_
      · subst hnodes
        exact h shown (.tag kind hs)
      · refine relation.bind (renderParts_rel relation fun shown hs => ?_)
          fun _ _ => relation.pure _
        exact h shown (.part kind hs)
  | table type value =>
      cases type with
      | drawing => exact relation.pure _
      | rows =>
          refine relation.bind (renderCaption_rel relation fun nodes hnodes shown hs => ?_)
            fun _ _ => relation.pure _
          exact h shown (.caption kind hnodes hs)
  | link type path =>
      refine link_rel relation (fun htype target htarget shown hs => ?_)
        fun himage block caption hblock hcaption shown hs => ?_
      · subst htype
        exact h shown (.radio kind htarget hs)
      · exact h shown (.image kind (gives (by rw [kind]; rfl)) himage hblock hcaption hs)
  | footnoteReference label => exact hreference (by rw [kind]; rfl)
  | _ => exact relation.pure _

/-- The markup of the children that are rendered before their owner, put together. -/
def contentsOf (render : Node → Rendering (List Char)) (node : Node) : Rendering (List Char) :=
  if descends node.kind then renderAll render node.children else pure []

theorem renderWith_eq (context : Context) (render : Node → Rendering (List Char)) (node : Node) :
    renderWith context render node =
      contentsOf render node >>= fun contents =>
        format context render node contents >>= fun markup => pure (withSpace node markup) := by
  unfold renderWith contentsOf
  cases descends node.kind <;> rfl

/-- The relation holds of the renderings of a node when it holds of those of all nodes shown. -/
theorem renderWith_rel {node : Node}
    (h : ∀ shown, Shows context render node shown → relation.Rel (render shown) (other shown))
    (hreference : node.kind.isFootnoteReference = true →
      relation.Rel (footnoteReference context node) (footnoteReference context node)) :
    relation.Rel (renderWith context render node) (renderWith context other node) := by
  have hcontents : relation.Rel (contentsOf render node) (contentsOf other node) := by
    simp only [contentsOf]
    split
    · next hd => exact renderAll_rel relation fun shown hs => h shown (.child hd hs)
    · exact relation.pure []
  rw [renderWith_eq, renderWith_eq]
  apply relation.bind hcontents
  intro contents hgives
  refine relation.bind (format_rel relation (fun hd => ?_) h hreference) fun _ _ => relation.pure _
  simpa only [contentsOf, hd, if_true] using hgives

end

end Markup
end OutlineWiki
