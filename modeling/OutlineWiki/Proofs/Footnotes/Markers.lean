import OutlineWiki.Outline.Build
import OutlineWiki.Proofs.Footnotes.Section
import OutlineWiki.Proofs.Rendering.Reach

/-!
Markers of the footnotes that have numbers.

A footnote gets its number when a reference to it is rendered, even where no format then
shows what the rendering gave. The marker is in the export as soon as one reference to the
footnote is displayed, in the body or in the text of a footnote.
-/

namespace OutlineWiki
namespace Markup

open Rendering

variable {context : Context} {final : Footnotes} {P : Node → Prop}

theorem footnoteEntries_tracks
    (hclosed : ∀ node other, P node →
      context.Presents final (fun _ => True) node other → P other)
    (htexts : ∀ number nodes, (number, nodes) ∈ context.index.numberedTexts final →
      ∀ node ∈ nodes, P node) (fuel place : Nat) :
    Tracks final P (footnoteEntries context context.render fuel place) := by
  refine ⟨fun notes entries later h => (footnoteEntries_spec h).1, ?_⟩
  induction fuel generalizing place with
  | zero => intro notes entries later h; cases h
  | succ fuel ih =>
      intro notes entries later h hle hp
      have hlater := (footnoteEntries_spec h).1
      cases hr : notes.referenceAt? place with
      | none =>
          rw [footnoteEntries_none hr] at h
          cases h
          exact hp
      | some reference =>
          cases ht : context.index.footnoteText? reference with
          | none =>
              rw [footnoteEntries_skip hr ht] at h
              exact ih (place + 1) notes entries later h hle hp
          | some nodes =>
              rw [footnoteEntries_text hr ht] at h
              have hmem : (place + 1, nodes) ∈ context.index.numberedTexts final :=
                Index.mem_numberedTexts_iff.mpr ⟨place, reference, rfl,
                  Footnotes.referenceAt?_mono (Footnotes.le_trans hlater hle) hr, ht⟩
              have htext : Tracks final P (renderAll context.render nodes) :=
                renderAll_tracks fun node hn =>
                  renderNode_tracks hclosed (Nat.le_refl _) (htexts _ nodes hmem node hn)
              have hrest : Tracks final P
                  (footnoteEntries context context.render fuel (place + 1)) :=
                ⟨fun notes entries later h => (footnoteEntries_spec h).1, ih (place + 1)⟩
              exact (tracks_bind htext fun _ _ => tracks_bind hrest fun _ _ =>
                tracks_pure _).2 notes entries later h hle hp

end Markup

/-- The node is the tree, or stands in the text of a footnote with a number and a text. -/
def Context.Starts (context : Context) (root : Node) (notes : Footnotes) (node : Node) : Prop :=
  node = root ∨ ∃ number nodes, (number, nodes) ∈ context.index.numberedTexts notes ∧
    node ∈ nodes

/-- A reference to the footnote is displayed in the body or in the text of a footnote. -/
def Context.Refers (context : Context) (root : Node) (notes : Footnotes) (passes : Node → Prop)
    (footnote : Footnote) : Prop :=
  ∃ start reference, context.Starts root notes start ∧
    context.Displays notes passes start reference ∧ reference.footnote? = some footnote

namespace Context

open Markup Rendering

variable {context : Context} {root : Node} {final : Footnotes}

theorem Presents.shows {passes : Node → Prop} {node other : Node}
    (h : context.Presents final passes node other) : Shows context context.render node other := by
  cases h with
  | child opens _ mem =>
      obtain hd | ⟨_, _, kind⟩ := opens
      · exact .child hd mem
      · exact .part kind mem
  | title kind shown mem => exact .title kind shown mem
  | tag kind mem => exact .tag kind mem
  | caption kind shown mem => exact .caption kind shown mem
  | radio kind leads mem => exact .radio kind leads mem
  | image kind rests image stands shown mem =>
      exact .image kind ⟨final, final, rests⟩ image stands shown mem

theorem Presents.of_passes {passes : Node → Prop} {node other : Node}
    (hpasses : node.OpensChildren → node.children ≠ [] → passes node)
    (h : context.Presents final (fun _ => True) node other) :
    context.Presents final passes node other := by
  cases h with
  | child opens _ mem => exact .child opens (hpasses opens (List.ne_nil_of_mem mem)) mem
  | title kind shown mem => exact .title kind shown mem
  | tag kind mem => exact .tag kind mem
  | caption kind shown mem => exact .caption kind shown mem
  | radio kind leads mem => exact .radio kind leads mem
  | image kind rests image stands shown mem => exact .image kind rests image stands shown mem

/-- Every footnote with a number is referred to, and where no node hides the markup of its
children, such a reference is displayed. -/
theorem refers_of_get? {noted : Footnotes} {body shown : List Char}
    (within : context.Within root) (hindex : context.index = Index.ofTree root)
    (hbody : (context.render root).run {} = some (body, noted))
    (hshown : context.footnotesSection.run noted = some (shown, final))
    {passes : Node → Prop}
    (hpasses : ∀ node ∈ root.walk, node.OpensChildren → node.children ≠ [] → passes node)
    {footnote : Footnote} {number : Nat} (hn : final.get? footnote = some number) :
    context.Refers root final passes footnote := by
  let P : Node → Prop := fun node => node ∈ root.walk ∧
    ∃ start, context.Starts root final start ∧ context.Displays final passes start node
  have hclosed : ∀ node other, P node → context.Presents final (fun _ => True) node other →
      P other := by
    rintro node other ⟨hmem, start, hstart, hdisplays⟩ hstep
    exact ⟨mem_walk_of_shows within hmem hstep.shows, start, hstart,
      hdisplays.tail (hstep.of_passes (hpasses node hmem))⟩
  obtain ⟨entries, later, hentries, hframe⟩ := run_bind_eq_some hshown
  have hfinal : later = final := by
    split at hframe <;> exact (run_pure_eq_some hframe).2.symm
  subst hfinal
  have hof : Footnotes.Of root later := by
    refine footnoteEntries_keeps within ?_ _ _ _ _ _ hentries
      (renderNode_keeps within _ root.mem_walk_self _ _ _ hbody (Footnotes.of_empty root))
    rw [hindex]
    exact fun _ hr _ ht _ hn => Index.footnoteText?_mem hr ht hn
  have htexts : ∀ number nodes, (number, nodes) ∈ context.index.numberedTexts later →
      ∀ node ∈ nodes, P node := by
    intro number nodes hmem node hnode
    obtain ⟨place, reference, _, hat, ht⟩ := Index.mem_numberedTexts_iff.mp hmem
    rw [hindex] at ht
    exact ⟨Index.footnoteText?_mem (hof.mem reference (List.mem_of_getElem? hat)) ht hnode,
      node, .inr ⟨number, nodes, hmem, hnode⟩, .refl⟩
  have hnoted : noted.All P :=
    (renderNode_tracks hclosed (Nat.le_refl _) ⟨root.mem_walk_self, root, .inl rfl, .refl⟩).2
      {} body noted hbody (footnoteEntries_spec hentries).1 (Footnotes.all_empty P)
  have hall : later.All P := (footnoteEntries_tracks hclosed htexts _ _).2 noted entries later
    hentries (Footnotes.le_refl later) hnoted
  obtain ⟨place, reference, _, hat, hf⟩ := Footnotes.reference_of_get? hn
  obtain ⟨_, start, hstart, hdisplays⟩ := hall reference (List.mem_of_getElem? hat)
  exact ⟨start, reference, hstart, hdisplays, hf⟩

theorem infix_join {mark separator : List Char} {texts : List (List Char)} {text : List Char}
    (ht : text ∈ texts) (h : mark <:+: text) : mark <:+: Text.join separator texts := by
  induction texts with
  | nil => cases ht
  | cons first texts ih =>
      cases texts with
      | nil =>
          rw [List.mem_singleton] at ht
          subst ht
          simpa [Text.join, List.intercalate] using h
      | cons second texts =>
          have hjoin : Text.join separator (first :: second :: texts) =
              first ++ separator ++ Text.join separator (second :: texts) := by
            simp [Text.join, List.intercalate]
          rw [hjoin]
          obtain rfl | hrest := List.mem_cons.mp ht
          · exact List.infix_append_of_infix_left (List.infix_append_of_infix_left h)
          · exact List.infix_append_of_infix_right (ih hrest)

theorem exists_entry {numbered : Nat × List Node} {texts : List (Nat × List Node)}
    {entries : List (List Char)} (h : List.Forall₂ (context.IsEntry final) texts entries)
    (hn : numbered ∈ texts) : ∃ entry ∈ entries, context.IsEntry final numbered entry := by
  induction h with
  | nil => cases hn
  | cons hentry _ ih =>
      obtain rfl | hrest := List.mem_cons.mp hn
      · exact ⟨_, List.mem_cons_self, hentry⟩
      · obtain ⟨entry, hmem, hentry⟩ := ih hrest
        exact ⟨entry, List.mem_cons_of_mem _ hmem, hentry⟩

/-- The marker of a footnote that is referred to stands in the body or in the section. -/
theorem marker_infix_of_refers {root : Node} {externalIds : List (String × String)}
    {noted final : Footnotes} {body shown : List Char}
    (hbody : ((Context.ofTree root.prepare {} externalIds).render root.prepare).run {} =
      some (body, noted))
    (hshown : (Context.ofTree root.prepare {} externalIds).footnotesSection.run noted =
      some (shown, final))
    {footnote : Footnote} {number : Nat} (hn : final.get? footnote = some number)
    (h : (Context.ofTree root.prepare {} externalIds).Refers root.prepare final
      ((Context.ofTree root.prepare {} externalIds).Passes (marker number)) footnote) :
    marker number <:+: body ∨ marker number <:+: shown := by
  let context := Context.ofTree root.prepare {} externalIds
  have hm := isMark_marker number
  have hlabels : context.LeavesOutLabels := by
    intro label description template value hcode
    obtain ⟨line, _, heq⟩ := Option.map_eq_some_iff.mp hcode
    cases heq
    rfl
  have hsection := Context.footnotesSection_isSection (Context.render_of hbody) hshown
  obtain ⟨start, reference, hstart, hdisplays, hf⟩ := h
  have hcarries := renderNode_carries hlabels rfl hdisplays hf hn (Nat.le_refl context.depth)
  obtain rfl | ⟨own, nodes, hnumbered, hmem⟩ := hstart
  · refine .inl (hcarries body ?_)
    have hle : noted ≤ final := by
      obtain ⟨entries, later, hentries, hframe⟩ := run_bind_eq_some hshown
      have hfinal : later = final := by
        split at hframe <;> exact (run_pure_eq_some hframe).2.symm
      exact hfinal ▸ (footnoteEntries_spec hentries).1
    exact (context.render_settles _ {} body noted hbody).2 final hle
  · right
    obtain ⟨entries, hentries, hshown⟩ := hsection.entries
    obtain ⟨entry, hentry, text, htext, rfl⟩ := exists_entry hentries hnumbered
    have hin : marker number <:+: footnoteEntry own text :=
      List.infix_cons (List.infix_append_of_infix_left (List.infix_append_of_infix_right
        (hm.infix_trim (renderAll_carries (fun node => renderNode_grows context _ node) hmem
          hcarries text htext))))
    have hne : ¬ entries.isEmpty = true := by
      rw [List.isEmpty_iff]
      exact List.ne_nil_of_mem hentry
    rw [hshown, sectionAround, if_neg hne]
    have hfill : ∀ title joined : List Char,
        Text.fill "== %s ==\n\n%s".toList [title, joined] =
          "== ".toList ++ (title ++ (" ==\n\n".toList ++ (joined ++ []))) := fun _ _ => rfl
    change _ <:+: Text.fill "== %s ==\n\n%s".toList _
    rw [hfill]
    exact List.infix_append_of_infix_right (List.infix_append_of_infix_right
      (List.infix_append_of_infix_right
        (List.infix_append_of_infix_left (infix_join hentry hin))))

/-- Every number of an export belongs to a footnote that is referred to. The marker is in the
export when such a reference is displayed, and so for all numbers if no node of the tree
hides the markup of its children. -/
theorem renderDocument_markers (root : Node) (externalIds : List (String × String))
    {output : List Char} {final : Footnotes}
    (h : ((Context.ofTree root.prepare {} externalIds).renderDocument root.prepare).run {} =
      some (output, final)) :
    let context := Context.ofTree root.prepare {} externalIds
    ∀ number, 1 ≤ number → number ≤ final.size →
      ∃ footnote, final.get? footnote = some number ∧
        context.Refers root.prepare final (fun _ => True) footnote ∧
        (context.Refers root.prepare final (context.Passes (marker number)) footnote →
          marker number <:+: output) ∧
        ((∀ node ∈ root.prepare.walk, node.OpensChildren → node.children ≠ [] →
          context.Passes (marker number) node) → marker number <:+: output) := by
  intro context number hpos hsize
  obtain ⟨body, noted, shown, hbody, hshown, houtput⟩ := Context.renderDocument_run h
  have hsection := Context.footnotesSection_isSection (Context.render_of hbody) hshown
  obtain ⟨place, rfl⟩ : ∃ place, number = place + 1 := ⟨number - 1, by omega⟩
  obtain ⟨reference, _, footnote, hat, hf, hn⟩ := hsection.numbered place hsize
  have hm := isMark_marker (place + 1)
  have hrefers : ∀ {passes : Node → Prop},
      (∀ node ∈ root.prepare.walk, node.OpensChildren → node.children ≠ [] → passes node) →
        context.Refers root.prepare final passes footnote :=
    fun hpasses => refers_of_get? (Context.ofTree_within _ _ _) rfl hbody hshown hpasses hn
  have hmarker : context.Refers root.prepare final (context.Passes (marker (place + 1))) footnote →
      marker (place + 1) <:+: output := by
    intro hdisplayed
    rw [houtput]
    obtain hin | hin := marker_infix_of_refers hbody hshown hn hdisplayed
    · split
      · exact hin
      · exact List.infix_append_of_infix_left
          (List.infix_append_of_infix_left (hm.infix_trimEnd hin))
    · have hne : shown ≠ [] := fun hnil => hm.ne_nil (List.infix_nil.mp (hnil ▸ hin))
      rw [if_neg (by simpa using hne)]
      exact List.infix_append_of_infix_right hin
  exact ⟨footnote, hn, hrefers fun _ _ _ _ => trivial, hmarker,
    fun hpasses => hmarker (hrefers hpasses)⟩

end Context

section

open Node (document paragraph ofKind ofValue footnoteReference footnoteDefinition)

/-- A footnote in bold text, and another one in the text of the first. -/
def Node.nestedNotes : Node :=
  document
    [paragraph [ofKind .bold [footnoteReference "outer"]],
      footnoteDefinition "outer" [paragraph [footnoteReference "inner"]]]

theorem renderDocument_markers_nested :
    let context := Context.ofTree Node.nestedNotes.prepare {} []
    ∃ output final, (context.renderDocument Node.nestedNotes.prepare).run {} =
        some (output, final) ∧
      final.size = 2 ∧ Markup.marker 1 <:+: output ∧ Markup.marker 2 <:+: output := by
  intro context
  have hresult : ((context.renderDocument Node.nestedNotes.prepare).run {}).map (·.2.size) =
      some 2 := by
    decide +kernel
  obtain ⟨⟨output, final⟩, hrun, hsize⟩ := Option.map_eq_some_iff.mp hresult
  have hpasses : ∀ number, ∀ node ∈ Node.nestedNotes.prepare.walk, node.OpensChildren →
      node.children ≠ [] → context.Passes (Markup.marker number) node := by
    have hkinds : ∀ node ∈ Node.nestedNotes.prepare.walk, (match node.kind with
        | .document | .paragraph | .bold | .footnoteDefinition _ => true
        | _ => node.children.isEmpty) = true := by
      decide +kernel
    intro number node hmem hopens hchildren
    have hkind := hkinds node hmem
    rw [Context.Passes]
    split at hkind
    · next kind => rw [kind]; trivial
    · next kind => rw [kind]; trivial
    · next kind => rw [kind]; trivial
    · next kind =>
        obtain hd | ⟨_, _, hitem⟩ := hopens
        · rw [kind] at hd; cases hd
        · rw [kind] at hitem; cases hitem
    · exact absurd (List.isEmpty_iff.mp hkind) hchildren
  have hmarkers := Context.renderDocument_markers Node.nestedNotes [] hrun
  obtain ⟨_, _, _, _, hfirst⟩ := hmarkers 1 (by decide) (by rw [hsize]; decide)
  obtain ⟨_, _, _, _, hsecond⟩ := hmarkers 2 (by decide) (by rw [hsize])
  exact ⟨output, final, hrun, hsize, hfirst (hpasses 1), hsecond (hpasses 2)⟩

/-- An image whose description refers to a footnote. -/
def Node.describedImage : Node :=
  document
    [paragraph [ofKind (.link .image "x.png") [footnoteReference "hidden"]],
      footnoteDefinition "hidden" [paragraph [ofValue "note"]]]

/-- Not every number has its marker: an image hides the markup of its description. -/
theorem not_forall_marker_infix :
    ¬ ∀ (root : Node) (externalIds : List (String × String)) (output : List Char)
      (final : Footnotes),
      ((Context.ofTree root.prepare {} externalIds).renderDocument root.prepare).run {} =
        some (output, final) →
      ∀ number, 1 ≤ number → number ≤ final.size → Markup.marker number <:+: output := by
  intro hall
  have hresult : (((Context.ofTree Node.describedImage.prepare {} []).renderDocument
      Node.describedImage.prepare).run {}).map (fun result => (result.1, result.2.size)) =
        some ("![](x.png)\n\n== Footnotes ==\n\n[1] note\n".toList, 1) := by
    decide +kernel
  obtain ⟨⟨output, final⟩, hrun, heq⟩ := Option.map_eq_some_iff.mp hresult
  rw [Prod.mk.injEq] at heq
  obtain ⟨houtput, hsize⟩ := heq
  have hmarker := hall _ _ output final hrun 1 (by decide) (by rw [hsize])
  rw [show output = _ from houtput] at hmarker
  revert hmarker
  decide +kernel

end

end OutlineWiki
