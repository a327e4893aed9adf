import Mathlib.Logic.Relation
import OutlineWiki.Export
import OutlineWiki.Proofs.Rendering.Rest
import OutlineWiki.Proofs.Text.Occurrence

/-!
Nodes that are displayed, and the marks in their markup.

Rendering a node also renders its children, but not every format uses what they give. A
node presents another one when its format does, and whatever mark then stands in the
markup of the latter stands in that of the former.
-/

namespace OutlineWiki

open Rendering

/-- The children of the node are rendered with it. -/
def Node.OpensChildren (node : Node) : Prop :=
  Markup.descends node.kind = true ∨ ∃ checkbox tag, node.kind = .listItem checkbox tag

/-- The marker of the footnote with a number, as it is formatted by default. -/
def Markup.marker (number : Nat) : List Char :=
  "<sup>".toList ++ digits number ++ "</sup>".toList

/-- The label and the mark never overlap: where both stand in a text, one of them ends before the
other starts. -/
def Markup.Apart (label mark : List Char) : Prop :=
  ∀ before after first last : List Char, before ++ (label ++ after) = first ++ (mark ++ last) →
    before ++ label <+: first ∨ first ++ mark <+: before

/-- The host answers questions about code lines by leaving labels out of descriptions. -/
def Context.LeavesOutLabels (context : Context) : Prop :=
  ∀ label description template value,
    context.host.codeReference label description = some (template, value) →
      template = Survey.codeTemplate label description

/-- The format of the node shows a mark that stands in the markup of its children. -/
def Context.Passes (context : Context) (mark : List Char) (node : Node) : Prop :=
  match node.kind with
  | .document | .sectionBody | .paragraph | .plainList _ | .listItem _ _ | .quoteBlock
  | .tableRow _ | .bold | .italic | .radioTarget => True
  | .headline info _ => info.footnoteSection = false
  | .table type _ => type = .rows
  | .tableCell => Markup.isMarkingCell context node = false
  | .link .image _ => False
  | .link .radio _ => context.host.radioTarget node = none
  | .link .coderef path =>
    (∀ description, context.host.codeReference path.toList description = none) ∨
      Markup.Apart path.toList mark
  | .link _ _ => True
  | _ => False

/-- The markup of the node shows that of the other one in the registry, given which nodes
show the markup of their children. -/
inductive Context.Presents (context : Context) (notes : Footnotes) (passes : Node → Prop)
    (node : Node) : Node → Prop where
  | child {other : Node} (opens : node.OpensChildren) (shown : passes node)
      (mem : other ∈ node.children) : Presents context notes passes node other
  | title {other : Node} {info : HeadlineInfo} {title : List Node}
      (kind : node.kind = .headline info title) (shown : info.footnoteSection = false)
      (mem : other ∈ title) : Presents context notes passes node other
  | tag {other : Node} {checkbox : Checkbox} {tag : List Node}
      (kind : node.kind = .listItem checkbox (some tag)) (mem : other ∈ tag) :
      Presents context notes passes node other
  | caption {other : Node} {value : Option String} {caption : List Node}
      (kind : node.kind = .table .rows value)
      (shown : context.host.caption node = some caption) (mem : other ∈ caption) :
      Presents context notes passes node other
  | radio {other target : Node} {path : String} (kind : node.kind = .link .radio path)
      (leads : context.host.radioTarget node = some target) (mem : other ∈ target.children) :
      Presents context notes passes node other
  | image {other block : Node} {type : LinkType} {path : String} {contents : List Char}
      {caption : List Node} (kind : node.kind = .link type path)
      (rests : Rests notes (Markup.renderAll context.render node.children) contents)
      (image : Markup.isImage context type path (Markup.description contents) = true)
      (stands : context.index.parentBlock? node = some block)
      (shown : context.host.caption block = some caption) (mem : other ∈ caption) :
      Presents context notes passes node other

/-- The markup of the node shows that of the other one, through any nodes between them. -/
def Context.Displays (context : Context) (notes : Footnotes) (passes : Node → Prop) :
    Node → Node → Prop :=
  Relation.ReflTransGen (context.Presents notes passes)

namespace Markup

open OutlineWiki.Text

theorem Apart.infix_or {label mark before after : List Char} (ha : Apart label mark)
    (h : mark <:+: before ++ (label ++ after)) : mark <:+: before ∨ mark <:+: after := by
  obtain ⟨first, last, hparts⟩ := h
  rw [List.append_assoc] at hparts
  obtain ⟨between, rfl⟩ | hbefore := ha before after first last hparts.symm
  · simp only [List.append_assoc, List.append_cancel_left_eq] at hparts
    exact .inr (hparts ▸ List.infix_append' between mark last)
  · exact .inl ((List.suffix_append first mark).isInfix.trans hbefore.isInfix)

/-- Characters that the mark does not have can stand around the label. -/
theorem Apart.wrap {label mark : List Char} (ha : Apart label mark) (hm : mark ≠ []) {c d : Char}
    (hc : c ∉ mark) (hd : d ∉ mark) : Apart (c :: label ++ [d]) mark := by
  intro before after first last hparts
  have hinner : before ++ [c] ++ (label ++ (d :: after)) = first ++ (mark ++ last) := by
    simpa using hparts
  obtain ⟨between, rfl⟩ | hbefore := ha _ _ _ _ hinner
  · rw [List.append_assoc, List.append_assoc, List.append_assoc, List.append_assoc,
      List.append_cancel_left_eq, List.append_cancel_left_eq, List.append_cancel_left_eq] at hinner
    cases between with
    | nil =>
        obtain ⟨e, rest, rfl⟩ := List.exists_cons_of_ne_nil hm
        cases hinner
        exact absurd List.mem_cons_self hd
    | cons e between =>
        cases hinner
        exact .inl ⟨between, by simp⟩
  · obtain heq | hprefix := List.prefix_concat_iff.mp hbefore
    · have hlast := congrArg List.getLast? heq
      rw [List.getLast?_concat, List.getLast?_append, List.getLast?_eq_some_getLast hm] at hlast
      exact absurd (Option.some.inj hlast ▸ List.getLast_mem hm) hc
    · exact .inr hprefix

theorem Apart.infix_replaceFirst {label mark text : List Char} (ha : Apart label mark)
    (replacement : List Char) (h : mark <:+: text) :
    mark <:+: replaceFirst label replacement text := by
  rw [replaceFirst]
  split
  · next before after hsplit =>
      rw [(firstAt_of_splitFirst? hsplit).parts, List.append_assoc] at h
      obtain hin | hin := ha.infix_or h
      · exact List.infix_append_of_infix_left (List.infix_append_of_infix_left hin)
      · exact List.infix_append_of_infix_right hin
  · exact h

theorem marker_eq (number : Nat) :
    marker number = "<sup>".toList ++ digits number ++ "</sup>".toList :=
  rfl

theorem mem_marker {number : Nat} {c : Char} (h : c ∈ marker number) :
    c.isDigit = true ∨ c ∈ ['<', 's', 'u', 'p', '>', '/'] := by
  have hletters : ("<sup>".toList ++ "</sup>".toList).all
      (['<', 's', 'u', 'p', '>', '/'].contains ·) = true := by decide
  simp only [List.all_append, Bool.and_eq_true, List.all_eq_true, List.contains_iff_mem] at hletters
  rw [marker_eq, List.mem_append, List.mem_append] at h
  obtain (h | h) | h := h
  · exact .inr (hletters.1 c h)
  · exact .inl (Nat.isDigit_of_mem_toDigits (by decide) (by decide) h)
  · exact .inr (hletters.2 c h)

theorem isMark_marker (number : Nat) : IsMark (marker number) where
  ne_nil := by simp [marker_eq]
  solid c hc := by
    obtain hdigit | hmem := mem_marker hc
    · simp only [Char.isDigit, Bool.and_eq_true, decide_eq_true_eq,
        UInt32.le_iff_toNat_le] at hdigit
      have hlow : 48 ≤ c.toNat := hdigit.1
      have hhigh : c.toNat ≤ 57 := hdigit.2
      simp only [isBlank, Bool.or_eq_false_iff, Bool.and_eq_false_iff, beq_eq_false_iff_ne,
        decide_eq_false_iff_not]
      omega
    · have hletters : ['<', 's', 'u', 'p', '>', '/'].all (!isBlank ·) = true := by decide
      simpa using List.all_eq_true.mp hletters c hmem

theorem notMem_marker {number : Nat} {c : Char} (hd : c.isDigit = false)
    (hc : c ∉ ['<', 's', 'u', 'p', '>', '/']) : c ∉ marker number := by
  intro h
  obtain hdigit | hmem := mem_marker h
  · rw [hd] at hdigit
    cases hdigit
  · exact hc hmem

theorem infix_fill_marker {number : Nat} {text : List Char} (h : marker number <:+: text)
    (arguments : List (List Char)) : marker number <:+: fill text arguments := by
  refine infix_fill (isMark_marker number).ne_nil (fun c hc hpercent => ?_) ?_ h arguments
  · subst hpercent
    exact notMem_marker (by decide) (by decide) hc
  · rintro c hc
    cases hc
    decide

/-- Leaving out a label that is apart from a marker leaves the marker where it is. -/
theorem infix_codeTemplate {number : Nat} {label text : List Char}
    (ha : Apart label (marker number)) (h : marker number <:+: text) :
    marker number <:+: Survey.codeTemplate label (some text) := by
  have hwrapped : Apart ('(' :: label ++ [')']) (marker number) :=
    ha.wrap (isMark_marker number).ne_nil (notMem_marker (by decide) (by decide))
      (notMem_marker (by decide) (by decide))
  unfold Survey.codeTemplate
  dsimp only
  split
  · exact hwrapped.infix_replaceFirst _ h
  · exact ha.infix_replaceFirst _ h

theorem exists_description {mark contents : List Char} (hm : IsMark mark)
    (h : mark <:+: contents) :
    ∃ text, description contents = some text ∧ mark <:+: text := by
  have hin := hm.infix_trim h
  have hne : trim contents ≠ [] := fun hnil => hm.ne_nil (List.infix_nil.mp (hnil ▸ hin))
  exact ⟨trim contents, if_neg (by simpa using hne), hin⟩

theorem infix_headlineMarkup {mark title contents : List Char} (hm : IsMark mark)
    (options : Options) (info : HeadlineInfo) (h : mark <:+: title ∨ mark <:+: contents) :
    mark <:+: headlineMarkup options info title contents := by
  have hheading : mark <:+: title → mark <:+: headingStart options info ++ trimEnd title :=
    fun hin => List.infix_append_of_infix_right (hm.infix_trimEnd hin)
  rw [headlineMarkup]
  obtain h | h := h
  · have hin := hheading h
    split
    · simp only [List.append_assoc]
      rw [← List.append_assoc (headingStart options info)]
      exact List.infix_append_of_infix_left hin
    · simp only [List.append_assoc]
      rw [← List.append_assoc (headingStart options info)]
      exact List.infix_append_of_infix_right (List.infix_append_of_infix_right
        (List.infix_append_of_infix_left hin))
  · split <;> exact List.infix_append_of_infix_right h

theorem infix_tableMarkup {mark contents : List Char} {name : Option String}
    {caption : Option (List Char)}
    (h : (∃ text, caption = some text ∧ mark <:+: text) ∨ mark <:+: contents) :
    mark <:+: tableMarkup name caption contents := by
  unfold tableMarkup
  obtain ⟨text, rfl, hin⟩ | hin := h
  · refine List.infix_append_of_infix_left (List.infix_append_of_infix_left
      (List.infix_append_of_infix_left (List.infix_append_of_infix_right ?_)))
    exact List.infix_append_of_infix_left (List.infix_append_of_infix_right hin)
  · exact List.infix_append_of_infix_left (List.infix_append_of_infix_right hin)

theorem infix_itemMark {mark text : List Char} (checkbox : Checkbox) (hm : mark ≠ [])
    (h : mark <:+: text) :
    ∃ before, itemMark checkbox (some text) = some before ∧ mark <:+: before := by
  have hin : mark <:+: checkboxMark checkbox ++ ("**".toList ++ text ++ ":** ".toList) :=
    List.infix_append_of_infix_right
      (List.infix_append_of_infix_left (List.infix_append_of_infix_right h))
  refine ⟨_, if_neg fun hempty => hm ?_, hin⟩
  exact List.infix_nil.mp (List.isEmpty_iff.mp hempty ▸ hin)

theorem infix_crossReference {mark text : List Char} (context : Context) (node : Node)
    (h : mark <:+: text) : mark <:+: crossReference context node (some text) := by
  rw [crossReference]
  split
  · exact h
  · exact List.infix_cons (List.infix_append_of_infix_left
      (List.infix_append_of_infix_left (List.infix_append_of_infix_left h)))
  · split
    · exact h
    · exact List.infix_append_of_infix_left
        (List.infix_append_of_infix_left (List.infix_append_of_infix_left h))

theorem infix_externalLink {mark text : List Char} (options : Options) (type : LinkType)
    (path : List Char) (h : mark <:+: text) :
    mark <:+: externalLink options type path (some text) :=
  List.infix_cons (List.infix_append_of_infix_left (List.infix_append_of_infix_right h))

theorem link_carries {notes : Footnotes} {number : Nat} {node : Node} {type : LinkType}
    {path : String} {contents : List Char} {render : Node → Rendering (List Char)}
    {context : Context} (hlabels : context.LeavesOutLabels)
    (kind : node.kind = .link type path) (passes : context.Passes (marker number) node)
    (h : marker number <:+: contents) :
    Carries notes (marker number) (link context render node type path contents) := by
  obtain ⟨text, htext, hin⟩ := exists_description (isMark_marker number) h
  simp only [Context.Passes, kind] at passes
  unfold link
  dsimp only
  rw [show (if (trim contents).isEmpty then none else some (trim contents)) = some text from htext]
  cases type with
  | customId | id => exact carries_pure (infix_crossReference context node hin)
  | coderef =>
      apply carries_pure
      rw [codeReference]
      split
      · exact hin
      · next template value hcode =>
          obtain hnone | ha := passes
          · rw [hnone] at hcode
            cases hcode
          · rw [hlabels _ _ _ _ hcode]
            exact infix_fill_marker (infix_codeTemplate ha hin) _
  | radio =>
      rw [radioLink, passes]
      exact carries_pure hin
  | fuzzy => exact carries_pure hin
  | image => exact passes.elim
  | _ => exact carries_pure (infix_externalLink context.options _ path.toList hin)

section

variable {context : Context} {notes : Footnotes} {number : Nat} {node other : Node}
  {render : Node → Rendering (List Char)} (hg : ∀ node, Grows (render node))
include hg

theorem contentsOf_grows (node : Node) : Grows (contentsOf render node) := by
  rw [contentsOf]
  split
  · exact renderAll_grows hg node.children
  · exact grows_pure []

theorem renderWith_carries
    (h : ∀ contents, Rests notes (contentsOf render node) contents →
      Carries notes (marker number) (format context render node contents)) :
    Carries notes (marker number) (renderWith context render node) := by
  rw [renderWith_eq]
  have hformat : ∀ contents, (contentsOf render node).Gives contents →
      Grows (format context render node contents) := fun contents hgives =>
    format_grows hg node fun hd => by simpa only [contentsOf, hd, if_true] using hgives
  refine carries_bind (contentsOf_grows hg node) (fun contents hgives =>
    grows_bind (hformat contents hgives) fun _ _ => grows_pure _) fun contents hcontents => ?_
  refine carries_bind (hformat contents ⟨notes, notes, hcontents⟩) (fun _ _ => grows_pure _)
    fun markup hmarkup => carries_pure ?_
  exact infix_withSpace (isMark_marker number) node (h contents hcontents markup hmarkup)

/-- The format of a node shows the marker that its contents hold when the node passes it. -/
theorem format_carries_contents {contents : List Char} (hlabels : context.LeavesOutLabels)
    (hdescends : descends node.kind = true) (passes : context.Passes (marker number) node)
    (h : marker number <:+: contents) :
    Carries notes (marker number) (format context render node contents) := by
  have hm := isMark_marker number
  rw [format]
  cases kind : node.kind with
  | document | sectionBody | plainList _ | radioTarget => exact carries_pure h
  | headline info title =>
      change Carries notes _ (headline context render info title contents)
      have hshown : ¬ info.footnoteSection = true := by
        simpa [Context.Passes, kind] using passes
      rw [headline, if_neg hshown]
      exact carries_bind (renderAll_grows hg title) (fun _ _ => grows_pure _)
        fun _ _ => carries_pure (infix_headlineMarkup hm _ _ (.inr h))
  | paragraph =>
      apply carries_pure
      rw [paragraph]
      split
      · exact List.infix_cons h
      · exact h
  | quoteBlock => exact carries_pure (infix_quoteBlock hm h)
  | table type value =>
      have htype : type = .rows := by simpa only [Context.Passes, kind] using passes
      subst htype
      exact carries_bind (renderCaption_grows hg _) (fun _ _ => grows_pure _)
        fun _ _ => carries_pure (infix_tableMarkup (.inr h))
  | tableRow type => exact carries_pure (List.infix_append_of_infix_right h)
  | tableCell =>
      have hcell : isMarkingCell context node = false := by
        simpa only [Context.Passes, kind] using passes
      apply carries_pure
      rw [tableCell, hcell]
      exact List.infix_cons (List.infix_append_of_infix_left h)
  | link type path => exact link_carries hlabels kind passes h
  | bold | italic =>
      exact carries_pure (List.infix_append_of_infix_left (List.infix_append_of_infix_right h))
  | listItem checkbox tag | footnoteReference label | footnoteDefinition label | comment
  | unknown =>
      rw [kind] at hdescends
      cases hdescends
  | _ => simp only [Context.Passes, kind] at passes

theorem listItem_carries {checkbox : Checkbox} {tag : Option (List Node)}
    (h : (∃ nodes, tag = some nodes ∧ other ∈ nodes) ∨ other ∈ node.children)
    (hother : Carries notes (marker number) (render other)) :
    Carries notes (marker number) (listItem context render node checkbox tag) := by
  have hm := isMark_marker number
  refine carries_bind (renderCaption_grows hg tag) (fun _ _ =>
    grows_bind (renderParts_grows hg _) fun _ _ => grows_pure _) fun caption hcaption => ?_
  refine carries_bind (renderParts_grows hg _) (fun _ _ => grows_pure _)
    fun parts hparts => carries_pure ?_
  obtain ⟨nodes, rfl, hmem⟩ | hmem := h
  · obtain ⟨text, rfl, hin⟩ := renderCaption_carries hm hg hmem hother hcaption
    obtain ⟨before, hbefore, hin⟩ := infix_itemMark checkbox hm.ne_nil hin
    rw [hbefore]
    exact infix_itemLines_mark hm hin
  · obtain ⟨part, hpart, hin⟩ := renderParts_carries hg hmem hother hparts
    exact infix_itemLines hm hpart hin

theorem image_carries {type : LinkType} {path : List Char} {block : Node} {caption : List Node}
    (hblock : context.index.parentBlock? node = some block)
    (hcaption : context.host.caption block = some caption) (hmem : other ∈ caption)
    (hother : Carries notes (marker number) (render other)) :
    Carries notes (marker number) (image context render node type path) := by
  rw [image]
  rw [hblock, Option.bind_some, hcaption]
  apply carries_bind (renderCaption_grows hg _) (fun _ _ => grows_pure _)
  intro shown hshown
  obtain ⟨text, rfl, hin⟩ := renderCaption_carries (isMark_marker number) hg hmem hother hshown
  exact carries_pure (List.infix_append_of_infix_left (List.infix_append_of_infix_left
    (List.infix_append_of_infix_left (List.infix_append_of_infix_right hin))))

theorem link_image_carries {type : LinkType} {path : String} {contents : List Char}
    {block : Node} {caption : List Node}
    (himage : isImage context type path (description contents) = true)
    (hblock : context.index.parentBlock? node = some block)
    (hcaption : context.host.caption block = some caption) (hmem : other ∈ caption)
    (hother : Carries notes (marker number) (render other)) :
    Carries notes (marker number) (link context render node type path contents) := by
  have hshown : Carries notes (marker number)
      (if isImage context type path (description contents) then
        image context render node type path.toList
      else
        pure (externalLink context.options type path.toList (description contents))) := by
    rw [if_pos himage]
    exact image_carries hg hblock hcaption hmem hother
  cases type with
  | customId | id | coderef | fuzzy | radio => cases himage
  | _ => exact hshown

end

variable {context : Context} {notes : Footnotes} {number : Nat} {node other : Node}

theorem renderNode_grows (context : Context) (depth : Nat) (node : Node) :
    Grows (renderNode context depth node) :=
  (renderNode_settles context (Nat.le_refl depth) node).grows

/-- What the children give within some depth they give within the depth of the context. -/
theorem contentsOf_eq {depth : Nat} (hdepth : depth ≤ context.depth) {contents result : List Char}
    (hd : descends node.kind = true)
    (hcontents : Rests notes (contentsOf (renderNode context depth) node) contents)
    (hresult : Rests notes (renderAll context.render node.children) result) :
    contents = result := by
  rw [contentsOf, if_pos hd] at hcontents
  have hextends : Extends (renderAll (renderNode context depth) node.children)
      (renderAll context.render node.children) :=
    renderAll_rel .extends fun child _ => renderNode_extends context hdepth child
  have hboth := (hextends notes _ hcontents).symm.trans hresult
  cases hboth
  rfl

/-- A marker in the markup of a node stands in that of a node that presents it. -/
theorem renderNode_succ_carries {depth : Nat} (hdepth : depth ≤ context.depth)
    (hlabels : context.LeavesOutLabels)
    (h : context.Presents notes (context.Passes (marker number)) node other)
    (hother : Carries notes (marker number) (renderNode context depth other)) :
    Carries notes (marker number) (renderNode context (depth + 1) node) := by
  have hm := isMark_marker number
  have hg := renderNode_grows context depth
  apply renderWith_carries hg
  intro contents hcontents
  cases h with
  | child opens passes mem =>
      obtain hd | ⟨checkbox, tag, kind⟩ := opens
      · rw [contentsOf, if_pos hd] at hcontents
        exact format_carries_contents hg hlabels hd passes
          (renderAll_carries hg mem hother contents hcontents)
      · rw [format, kind]
        exact listItem_carries hg (.inr mem) hother
  | @title info title kind shown mem =>
      rw [format, kind]
      change Carries notes _ (headline context _ info title contents)
      rw [headline, if_neg (by simp [shown])]
      exact carries_bind (renderAll_grows hg title) (fun _ _ => grows_pure _) fun text htext =>
        carries_pure (infix_headlineMarkup hm _ _
          (.inl (renderAll_carries hg mem hother text htext)))
  | tag kind mem =>
      rw [format, kind]
      exact listItem_carries hg (.inl ⟨_, rfl, mem⟩) hother
  | caption kind shown mem =>
      rw [format, kind]
      change Carries notes _ (table context _ node .rows contents)
      rw [table]
      rw [shown]
      exact carries_bind (renderCaption_grows hg _) (fun _ _ => grows_pure _)
        fun text htext => carries_pure (infix_tableMarkup
          (.inl (renderCaption_carries hm hg mem hother htext)))
  | radio kind leads mem =>
      rw [format, kind]
      change Carries notes _ (radioLink context _ node _)
      rw [radioLink, leads]
      exact renderAll_carries hg mem hother
  | image kind rests himage stands shown mem =>
      have hsame := contentsOf_eq hdepth (by rw [kind]; rfl) hcontents rests
      subst hsame
      rw [format, kind]
      exact link_image_carries hg himage stands shown mem hother

theorem footnoteReference_carries
    (hformat : context.options.footnoteReferenceFormat = "<sup>%s</sup>")
    {footnote : Footnote} (hf : node.footnote? = some footnote)
    (hn : notes.get? footnote = some number) :
    Carries notes (marker number) (footnoteReference context node) := by
  intro text htext
  obtain ⟨again, hagain, hrun⟩ := footnoteReference_run context hf notes
  have hboth := hrun.symm.trans htext
  rw [Option.some.injEq, Prod.mk.injEq] at hboth
  obtain ⟨rfl, hmeet⟩ := hboth
  rw [hmeet, hn] at hagain
  cases hagain
  apply List.infix_append_of_infix_right
  rw [hformat]
  have hfill : fill "<sup>%s</sup>".toList [digits number] = marker number := rfl
  exact hfill ▸ List.infix_rfl

/-- The marker of a reference stands in the markup of each node that displays it. -/
theorem renderNode_carries {reference : Node} {footnote : Footnote}
    (hlabels : context.LeavesOutLabels)
    (hformat : context.options.footnoteReferenceFormat = "<sup>%s</sup>")
    (h : context.Displays notes (context.Passes (marker number)) node reference)
    (hf : reference.footnote? = some footnote) (hn : notes.get? footnote = some number)
    {depth : Nat} (hdepth : depth ≤ context.depth) :
    Carries notes (marker number) (renderNode context depth node) := by
  induction h using Relation.ReflTransGen.head_induction_on generalizing depth with
  | refl =>
      cases depth with
      | zero => intro text htext; cases htext
      | succ depth =>
          apply renderWith_carries (renderNode_grows context depth)
          intro contents _
          obtain ⟨label, kind⟩ := Node.exists_label hf
          rw [format, kind]
          exact footnoteReference_carries hformat hf hn
  | head hstep _ ih =>
      cases depth with
      | zero => intro text htext; cases htext
      | succ depth =>
          exact renderNode_succ_carries (Nat.le_of_succ_le hdepth) hlabels hstep
            (ih (Nat.le_of_succ_le hdepth))

end Markup
end OutlineWiki
