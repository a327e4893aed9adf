import OutlineWiki.Outline.Build
import OutlineWiki.Proofs.Outline.Numbering
import OutlineWiki.Proofs.Rendering.Within

/-!
The section of footnotes.

The section goes through the numbers from the first on, and the texts of footnotes may
number further ones while it does. In the end it has gone through all numbers of the
last registry, once and in order. Since a rendering does not change when it is done
again, each entry is what the last registry makes of the text of its footnote.
-/

namespace OutlineWiki

/-- The number and the text of the footnote at a place, if this footnote has a text. -/
def Index.numberedText? (index : Index) (notes : Footnotes) (place : Nat) :
    Option (Nat × List Node) :=
  ((notes.referenceAt? place).bind index.footnoteText?).map fun nodes => (place + 1, nodes)

/-- The numbers and texts of all footnotes that have both, in order of the numbers. -/
def Index.numberedTexts (index : Index) (notes : Footnotes) : List (Nat × List Node) :=
  (List.range notes.size).filterMap (index.numberedText? notes)

/-- The entry shows the number and the markup that the text has in the given registry. -/
def Context.IsEntry (context : Context) (notes : Footnotes) (numbered : Nat × List Node)
    (entry : List Char) : Prop :=
  ∃ text, (Markup.renderAll context.render numbered.2).run notes = some (text, notes) ∧
    entry = Markup.footnoteEntry numbered.1 text

/-- The section around its entries, which is empty when there are none. -/
def Context.sectionAround (context : Context) (entries : List (List Char)) : List Char :=
  if entries.isEmpty then
    []
  else
    Text.fill context.options.footnotesSectionTemplate.toList
      [(context.host.localize "Footnotes").toList, Text.joinLines entries]

/-- The contents with the section around the entries behind them, unless this is empty. -/
def Context.assembled (context : Context) (contents : List Char) (entries : List (List Char)) :
    List Char :=
  let shown := context.sectionAround entries
  if shown.isEmpty then contents else Text.trimEnd contents ++ ['\n', '\n'] ++ shown

theorem Context.footnotesSection_eq (context : Context) :
    context.footnotesSection =
      Markup.footnoteEntries context context.render (context.depth + 1) 0 >>= fun entries =>
        pure (context.sectionAround entries) := by
  refine bind_congr fun entries => ?_
  rw [sectionAround]
  split <;> rfl

theorem Context.withFootnotes_eq (context : Context) (contents : List Char) :
    context.withFootnotes contents =
      Markup.footnoteEntries context context.render (context.depth + 1) 0 >>= fun entries =>
        pure (context.assembled contents entries) := by
  rw [withFootnotes, footnotesSection_eq, bind_assoc]
  refine bind_congr fun entries => ?_
  rw [pure_bind, assembled]
  split <;> rfl

namespace Markup

open Rendering

variable {context : Context}

theorem footnoteEntries_none {fuel place : Nat} {notes : Footnotes}
    (hr : notes.referenceAt? place = none) :
    (footnoteEntries context context.render (fuel + 1) place).run notes = some ([], notes) := by
  rw [footnoteEntries, run_get_bind, hr]
  rfl

theorem footnoteEntries_skip {fuel place : Nat} {notes : Footnotes} {reference : Node}
    (hr : notes.referenceAt? place = some reference)
    (ht : context.index.footnoteText? reference = none) :
    (footnoteEntries context context.render (fuel + 1) place).run notes =
      (footnoteEntries context context.render fuel (place + 1)).run notes := by
  rw [footnoteEntries, run_get_bind, hr]
  dsimp only
  rw [ht]

theorem footnoteEntries_text {fuel place : Nat} {notes : Footnotes} {reference : Node}
    {nodes : List Node} (hr : notes.referenceAt? place = some reference)
    (ht : context.index.footnoteText? reference = some nodes) :
    (footnoteEntries context context.render (fuel + 1) place).run notes =
      (do
        let text ← renderAll context.render nodes
        let rest ← footnoteEntries context context.render fuel (place + 1)
        return footnoteEntry (place + 1) text :: rest : Rendering (List (List Char))).run
          notes := by
  rw [footnoteEntries, run_get_bind, hr]
  dsimp only
  rw [ht]

/-- The loop of the section goes on until no number is left in the registry it made. -/
theorem footnoteEntries_spec {fuel place : Nat} {notes final : Footnotes}
    {entries : List (List Char)}
    (h : (footnoteEntries context context.render fuel place).run notes = some (entries, final)) :
    notes ≤ final ∧
      List.Forall₂ (context.IsEntry final)
        ((List.range' place (final.size - place)).filterMap
          (context.index.numberedText? final)) entries := by
  induction fuel generalizing place notes entries with
  | zero => cases h
  | succ fuel ih =>
      cases hr : notes.referenceAt? place with
      | none =>
          rw [footnoteEntries_none hr] at h
          cases h
          have hsize : final.size - place = 0 :=
            Nat.sub_eq_zero_of_le (List.getElem?_eq_none_iff.mp hr)
          rw [hsize]
          exact ⟨Footnotes.le_refl final, .nil⟩
      | some reference =>
          -- Whatever the rest of the loop adds, the footnote at this place stays.
          have hrange : ∀ {later : Footnotes}, notes ≤ later →
              (List.range' place (later.size - place)) =
                place :: List.range' (place + 1) (later.size - (place + 1)) := by
            intro later hle
            have hlt := (List.getElem?_eq_some_iff.mp (Footnotes.referenceAt?_mono hle hr)).1
            have hsize : later.size - place = later.size - (place + 1) + 1 := by
              rw [Footnotes.size]
              omega
            rw [hsize, List.range'_succ]
          cases ht : context.index.footnoteText? reference with
          | none =>
              rw [footnoteEntries_skip hr ht] at h
              obtain ⟨hle, hentries⟩ := ih h
              refine ⟨hle, ?_⟩
              rw [hrange hle, List.filterMap_cons]
              simpa [Index.numberedText?, Footnotes.referenceAt?_mono hle hr, ht] using hentries
          | some nodes =>
              rw [footnoteEntries_text hr ht] at h
              obtain ⟨text, between, hrun, h⟩ := run_bind_eq_some h
              obtain ⟨rest, later, hrest, h⟩ := run_bind_eq_some h
              obtain ⟨rfl, rfl⟩ := run_pure_eq_some h
              obtain ⟨hle, hagain⟩ := context.renderAll_settles nodes notes text between hrun
              obtain ⟨hle', hentries⟩ := ih hrest
              have hle := Footnotes.le_trans hle hle'
              refine ⟨hle, ?_⟩
              rw [hrange hle, List.filterMap_cons]
              simp only [Index.numberedText?, Footnotes.referenceAt?_mono hle hr, ht,
                Option.bind_some, Option.map_some]
              exact .cons ⟨text, hagain final hle', rfl⟩ hentries

/-- More turns than the loop takes change nothing, nor do renderings that end more often. -/
theorem footnoteEntries_extends {render other : Node → Rendering (List Char)}
    (hrender : ∀ node, Extends (render node) (other node)) {turns more : Nat} (h : turns ≤ more)
    (place : Nat) :
    Extends (footnoteEntries context render turns place)
      (footnoteEntries context other more place) := by
  induction turns generalizing more place with
  | zero => intro notes result hrun; cases hrun
  | succ turns ih =>
      obtain ⟨more, rfl⟩ : ∃ less, more = less + 1 := ⟨more - 1, by omega⟩
      have hrest : Extends (footnoteEntries context render turns (place + 1))
          (footnoteEntries context other more (place + 1)) := ih (by omega) _
      intro notes result hrun
      rw [footnoteEntries, run_get_bind] at hrun ⊢
      split at hrun
      · exact hrun
      · split at hrun
        · exact hrest notes result hrun
        · next nodes _ =>
            have hall : Extends (renderAll render nodes) (renderAll other nodes) :=
              renderAll_rel .extends fun node _ => hrender node
            exact extends_bind hall (fun _ _ => extends_bind hrest fun _ _ => extends_pure _)
              notes result hrun

theorem footnoteEntries_keeps {root : Node} (within : context.Within root)
    (htext : ∀ reference ∈ root.walk, ∀ nodes, context.index.footnoteText? reference = some nodes →
      ∀ node ∈ nodes, node ∈ root.walk) (fuel place : Nat) :
    Keeps (Footnotes.Of root) (footnoteEntries context context.render fuel place) := by
  induction fuel generalizing place with
  | zero => intro notes entries later h; cases h
  | succ fuel ih =>
      intro notes entries later h hof
      cases hr : notes.referenceAt? place with
      | none =>
          rw [footnoteEntries_none hr] at h
          cases h
          exact hof
      | some reference =>
          cases ht : context.index.footnoteText? reference with
          | none =>
              rw [footnoteEntries_skip hr ht] at h
              exact ih (place + 1) notes entries later h hof
          | some nodes =>
              rw [footnoteEntries_text hr ht] at h
              have hmem := hof.mem reference (List.mem_of_getElem? hr)
              have hnodes : Keeps (Footnotes.Of root) (renderAll context.render nodes) :=
                renderAll_keeps fun node hn =>
                  renderNode_keeps within context.depth (htext reference hmem nodes ht node hn)
              exact keeps_bind hnodes (fun _ _ => keeps_bind (ih (place + 1)) fun _ _ =>
                keeps_pure _) notes entries later h hof

end Markup

namespace Index

/-- References of one footnote have one text. -/
theorem footnoteText?_eq {root reference other : Node} (index : Index)
    (hr : reference ∈ root.prepare.walk) (ho : other ∈ root.prepare.walk)
    {footnote : Footnote} (hf : reference.footnote? = some footnote)
    (hof : other.footnote? = some footnote) :
    index.footnoteText? reference = index.footnoteText? other := by
  cases footnote with
  | labelled label =>
      simp only [footnoteText?]
      rw [Node.kind_of_labelled hf, Node.kind_of_labelled hof]
  | anonymous id =>
      have hid := (Node.id_of_anonymous hf).trans (Node.id_of_anonymous hof).symm
      rw [Node.eq_of_id_eq hr ho hid]

theorem mem_numberedTexts_iff {index : Index} {notes : Footnotes} {number : Nat}
    {nodes : List Node} :
    (number, nodes) ∈ index.numberedTexts notes ↔
      ∃ place reference, number = place + 1 ∧ notes.referenceAt? place = some reference ∧
        index.footnoteText? reference = some nodes := by
  simp only [numberedTexts, List.mem_filterMap, numberedText?, Option.map_eq_some_iff,
    Option.bind_eq_some_iff, Prod.mk.injEq]
  constructor
  · rintro ⟨place, _, text, ⟨reference, hr, ht⟩, rfl, rfl⟩
    exact ⟨place, reference, rfl, hr, ht⟩
  · rintro ⟨place, reference, rfl, hr, ht⟩
    exact ⟨place, List.mem_range.mpr (List.getElem?_eq_some_iff.mp hr).1,
      nodes, ⟨reference, hr, ht⟩, rfl, rfl⟩

end Index

/-- What the section of an export says, given the registries before and after it. -/
structure Context.IsSection (context : Context) (root : Node) (noted final : Footnotes)
    (shown : List Char) : Prop where
  /-- Every number up to the last one belongs to a reference of the tree. -/
  numbered : ∀ place < final.size, ∃ reference ∈ root.walk, ∃ footnote,
    final.referenceAt? place = some reference ∧ reference.footnote? = some footnote ∧
      final.get? footnote = some (place + 1)
  /-- No number that was given before has changed. -/
  kept : ∀ footnote number, noted.get? footnote = some number →
    final.get? footnote = some number
  /-- There is one entry for each number whose footnote has a text, in order. -/
  entries : ∃ entries,
    List.Forall₂ (context.IsEntry final) (context.index.numberedTexts final) entries ∧
      shown = context.sectionAround entries
  /-- A reference that is rendered at any time of the export shows the number of the entry
  that is made of its own text. -/
  own : ∀ reference ∈ root.walk, ∀ footnote, reference.footnote? = some footnote →
    ∀ notes text later, (Markup.footnoteReference context reference).run notes =
      some (text, later) → later ≤ final →
        ∃ number, text = Markup.referenceMarkup context reference number ∧
          final.get? footnote = some number ∧
          ∀ nodes, (number, nodes) ∈ context.index.numberedTexts final ↔
            context.index.footnoteText? reference = some nodes

theorem Context.footnotesSection_isSection {root : Node} {options : Options}
    {externalIds : List (String × String)} {noted final : Footnotes} {shown : List Char}
    (hof : Footnotes.Of root.prepare noted)
    (h : (Context.ofTree root.prepare options externalIds).footnotesSection.run noted =
      some (shown, final)) :
    (Context.ofTree root.prepare options externalIds).IsSection root.prepare noted final shown := by
  let context := Context.ofTree root.prepare options externalIds
  have within : context.Within root.prepare := Context.ofTree_within _ _ _
  obtain ⟨entries, later, hentries, hshown⟩ := Rendering.run_bind_eq_some h
  obtain ⟨hle, hspec⟩ := Markup.footnoteEntries_spec hentries
  have hofLater : Footnotes.Of root.prepare later :=
    Markup.footnoteEntries_keeps within
      (fun _ hr _ ht _ hn => Index.footnoteText?_mem hr ht hn) _ _ _ _ _ hentries hof
  have hframe : shown = context.sectionAround entries ∧ later = final := by
    rw [Context.sectionAround]
    split at hshown
    · next hempty => rw [if_pos hempty]; cases hshown; exact ⟨rfl, rfl⟩
    · next hsome => rw [if_neg hsome]; cases hshown; exact ⟨rfl, rfl⟩
  obtain ⟨rfl, rfl⟩ := hframe
  refine ⟨fun place hlt => ?_, fun _ _ hn => Footnotes.get?_mono hle hn, ⟨entries, ?_, rfl⟩,
    fun reference hr footnote hf notes text after hrun hafter => ?_⟩
  · have hat : later.referenceAt? place = some later.references[place] :=
      List.getElem?_eq_getElem hlt
    obtain ⟨footnote, hf, hn⟩ := hofLater.get?_of_referenceAt? hat
    exact ⟨_, hofLater.mem _ (List.getElem_mem hlt), footnote, hat, hf, hn⟩
  · simpa only [Index.numberedTexts, List.range_eq_range', Nat.sub_zero] using hspec
  · obtain ⟨number, hmet, hrun'⟩ := Markup.footnoteReference_run context hf notes
    rw [hrun'] at hrun
    cases hrun
    have hn := Footnotes.get?_mono hafter hmet
    refine ⟨number, rfl, hn, fun nodes => ?_⟩
    obtain ⟨place, first, rfl, hat, hfirst⟩ := Footnotes.reference_of_get? hn
    have hmem := hofLater.mem first (List.mem_of_getElem? hat)
    have hsame := context.index.footnoteText?_eq hr hmem hf hfirst
    rw [Index.mem_numberedTexts_iff, hsame]
    constructor
    · rintro ⟨other, found, hplace, hfound, ht⟩
      cases hplace
      rw [hat] at hfound
      cases hfound
      exact ht
    · exact fun ht => ⟨place, first, rfl, hat, ht⟩

/-- An export renders the body first and then the section, which it puts behind the body. -/
theorem Context.renderDocument_run {context : Context} {root : Node} {output : List Char}
    {notes final : Footnotes} (h : (context.renderDocument root).run notes = some (output, final)) :
    ∃ body noted shown, (context.render root).run notes = some (body, noted) ∧
      context.footnotesSection.run noted = some (shown, final) ∧
      output = if shown.isEmpty then body else Text.trimEnd body ++ ['\n', '\n'] ++ shown := by
  obtain ⟨body, noted, hbody, h⟩ := Rendering.run_bind_eq_some h
  obtain ⟨contents, later, hcontents, h⟩ := Rendering.run_bind_eq_some h
  obtain ⟨shown, last, hshown, hcontents⟩ := Rendering.run_bind_eq_some hcontents
  have hframe : output = contents ∧ final = later := Rendering.run_pure_eq_some h
  have hcontents : contents =
      (if shown.isEmpty then body else Text.trimEnd body ++ ['\n', '\n'] ++ shown) ∧
        later = last := by
    split at hcontents
    · next hempty => rw [if_pos hempty]; exact Rendering.run_pure_eq_some hcontents
    · next hsome => rw [if_neg hsome]; exact Rendering.run_pure_eq_some hcontents
  obtain ⟨rfl, rfl⟩ := hframe
  obtain ⟨rfl, rfl⟩ := hcontents
  exact ⟨body, noted, shown, hbody, hshown, rfl⟩

theorem Context.render_of {root : Node} {options : Options}
    {externalIds : List (String × String)} {body : List Char} {noted : Footnotes}
    (h : ((Context.ofTree root.prepare options externalIds).render root.prepare).run {} =
      some (body, noted)) : Footnotes.Of root.prepare noted :=
  Markup.renderNode_keeps (Context.ofTree_within _ _ _) _ (Node.mem_walk_self _) _ _ _ h
    (Footnotes.of_empty _)

/-- An export is its body with the section of footnotes after it. The section goes through
all numbers, also those it gives itself, and every marker leads to the entry made of the
text that its own reference refers to. -/
theorem Context.renderDocument_section (root : Node) (options : Options)
    (externalIds : List (String × String)) {output : List Char} {final : Footnotes}
    (h : ((Context.ofTree root.prepare options externalIds).renderDocument root.prepare).run {} =
      some (output, final)) :
    let context := Context.ofTree root.prepare options externalIds
    ∃ body noted shown,
      (context.render root.prepare).run {} = some (body, noted) ∧
      context.footnotesSection.run noted = some (shown, final) ∧
      context.IsSection root.prepare noted final shown ∧
      (context.index.numberedTexts final = [] → shown = []) ∧
      output = if shown.isEmpty then body else Text.trimEnd body ++ ['\n', '\n'] ++ shown := by
  intro context
  obtain ⟨body, noted, shown, hbody, hshown, houtput⟩ := Context.renderDocument_run h
  have hsection := Context.footnotesSection_isSection (Context.render_of hbody) hshown
  refine ⟨body, noted, shown, hbody, hshown, hsection, fun hnone => ?_, houtput⟩
  obtain ⟨entries, hentries, heq⟩ := hsection.entries
  rw [show (Context.ofTree root.prepare options externalIds).index.numberedTexts final = []
    from hnone] at hentries
  cases hentries
  exact heq

section

open Node (document paragraph ofValue footnoteReference footnoteDefinition)

/-- Two footnotes that refer to each other, and one without a text. -/
def Node.circularNotes : Node :=
  document
    [paragraph [ofValue "x", footnoteReference "none", footnoteReference "first"],
      footnoteDefinition "second" [paragraph [ofValue "back", footnoteReference "first"]],
      footnoteDefinition "first" [paragraph [ofValue "on", footnoteReference "second"]]]

theorem renderDocument_section_circular :
    let context := Context.ofTree Node.circularNotes.prepare {} []
    ∃ output final body noted shown,
      (context.renderDocument Node.circularNotes.prepare).run {} = some (output, final) ∧
      output = ("x<sup>1</sup><sup>, </sup><sup>2</sup>\n\n== Footnotes ==\n\n" ++
        "[2] on<sup>3</sup>\n\n[3] back<sup>2</sup>\n").toList ∧
      (context.render Node.circularNotes.prepare).run {} = some (body, noted) ∧
      context.IsSection Node.circularNotes.prepare noted final shown := by
  intro context
  have hoption : ((context.renderDocument Node.circularNotes.prepare).run {}).map (·.1) =
      some ("x<sup>1</sup><sup>, </sup><sup>2</sup>\n\n== Footnotes ==\n\n" ++
        "[2] on<sup>3</sup>\n\n[3] back<sup>2</sup>\n").toList := by
    decide +kernel
  obtain ⟨⟨output, final⟩, h, houtput⟩ := Option.map_eq_some_iff.mp hoption
  obtain ⟨body, noted, shown, hbody, _, hsection, _, _⟩ :=
    Context.renderDocument_section Node.circularNotes {} [] h
  exact ⟨output, final, body, noted, shown, h, houtput, hbody, hsection⟩

end

end OutlineWiki
