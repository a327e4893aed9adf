import OutlineWiki.Outline.Build
import OutlineWiki.Proofs.Footnotes.Section

/-!
Renderings that are done again.

Nodes are rendered more than once on purpose: the children of radio targets, captions and the
texts of footnotes. Once a rendering has come to an end, the next one finds all its footnotes
numbered, however many others have got numbers by then. So it gives the same text and leaves
the registry alone. The section of footnotes depends on the whole registry. It is the same
again as long as no other footnote got a number after it.
-/

namespace OutlineWiki

namespace Markup

open Rendering

variable {context : Context}

/-- In the registry that the loop leaves, the loop finds the same entries and adds nothing. -/
theorem footnoteEntries_again {fuel place : Nat} {notes final : Footnotes}
    {entries : List (List Char)}
    (h : (footnoteEntries context context.render fuel place).run notes = some (entries, final)) :
    (footnoteEntries context context.render fuel place).run final = some (entries, final) := by
  induction fuel generalizing place notes entries with
  | zero => cases h
  | succ fuel ih =>
      have hle := (footnoteEntries_spec h).1
      cases hr : notes.referenceAt? place with
      | none =>
          rw [footnoteEntries_none hr] at h
          cases h
          exact footnoteEntries_none hr
      | some reference =>
          have hr' := Footnotes.referenceAt?_mono hle hr
          cases ht : context.index.footnoteText? reference with
          | none =>
              rw [footnoteEntries_skip hr ht] at h
              rw [footnoteEntries_skip hr' ht]
              exact ih h
          | some nodes =>
              rw [footnoteEntries_text hr ht] at h
              obtain ⟨text, between, hrun, h⟩ := run_bind_eq_some h
              obtain ⟨rest, later, hrest, h⟩ := run_bind_eq_some h
              obtain ⟨rfl, rfl⟩ := run_pure_eq_some h
              -- The text came before the rest, so all its footnotes have numbers in the end.
              obtain ⟨_, hagain⟩ := context.renderAll_settles nodes notes text between hrun
              rw [footnoteEntries_text hr' ht, run_bind,
                hagain final (footnoteEntries_spec hrest).1, Option.bind_some, run_bind, ih hrest]
              rfl

end Markup

namespace Context

open Markup Rendering

variable {context : Context}

theorem withFootnotes_again {contents output : List Char} {notes final : Footnotes}
    (h : (context.withFootnotes contents).run notes = some (output, final)) :
    notes ≤ final ∧ (context.withFootnotes contents).run final = some (output, final) := by
  rw [withFootnotes_eq] at h ⊢
  obtain ⟨entries, later, hentries, houtput⟩ := run_bind_eq_some h
  obtain ⟨rfl, rfl⟩ := run_pure_eq_some houtput
  refine ⟨(footnoteEntries_spec hentries).1, ?_⟩
  rw [run_bind, footnoteEntries_again hentries]
  rfl

/-- A node that was rendered gives the same text in every later registry, which stays as it is.
The section of footnotes is the same again in the registry that it left. -/
theorem render_again (root : Node) (options : Options) (externalIds : List (String × String)) :
    let context := Context.ofTree root.prepare options externalIds
    (∀ node depth notes text later,
      (renderNode context depth node).run notes = some (text, later) →
        notes ≤ later ∧ ∀ more final, depth ≤ more → later ≤ final →
          (renderNode context more node).run final = some (text, final)) ∧
    ∀ contents notes output final,
      (context.withFootnotes contents).run notes = some (output, final) →
        notes ≤ final ∧ (context.withFootnotes contents).run final = some (output, final) := by
  intro context
  refine ⟨fun node depth notes text later hrun => ?_, fun _ _ _ _ => withFootnotes_again⟩
  refine ⟨(renderNode_settles context (Nat.le_refl depth) node notes text later hrun).1, ?_⟩
  intro more final hdepth hfinal
  exact (renderNode_settles context hdepth node notes text later hrun).2 final hfinal

end Context

section

open Node (document paragraph ofValue ofKind link footnoteReference footnoteDefinition)

/-- A radio link to a target with a footnote, whose text refers to another one. -/
def Node.echo : Node :=
  document
    [paragraph [ofKind .radioTarget [ofValue "word", footnoteReference "first"]],
      paragraph [link .radio "Word" none],
      footnoteDefinition "first" [paragraph [ofValue "note", footnoteReference "second"]],
      footnoteDefinition "second" [paragraph [ofValue "more"]]]

theorem render_again_echo :
    let root := Node.echo.prepare
    let context := Context.ofTree root {} []
    ∃ body noted output final,
      (context.render root).run {} = some (body, noted) ∧
      (context.withFootnotes body).run noted = some (output, final) ∧
      body = "word<sup>1</sup>\n\nword<sup>1</sup>\n\n".toList ∧ noted.size = 1 ∧
      final.size = 2 ∧ (context.render root).run final = some (body, final) ∧
      (context.withFootnotes body).run final = some (output, final) := by
  intro root context
  have hruns : ((context.render root >>= fun body => do
      let noted ← get
      let output ← context.withFootnotes body
      return (body, noted.size, output)).run {}).map (fun result =>
        (result.1.1, result.1.2.1, result.2.size)) =
      some ("word<sup>1</sup>\n\nword<sup>1</sup>\n\n".toList, 1, 2) := by
    decide +kernel
  obtain ⟨⟨⟨body, size, output⟩, final⟩, hrun, hvalues⟩ := Option.map_eq_some_iff.mp hruns
  obtain ⟨first, noted, hbody, hrest⟩ := Rendering.run_bind_eq_some hrun
  rw [Rendering.run_get_bind] at hrest
  obtain ⟨second, last, houtput, hpair⟩ := Rendering.run_bind_eq_some hrest
  cases (Rendering.run_pure_eq_some hpair).1
  cases (Rendering.run_pure_eq_some hpair).2
  simp only [Prod.mk.injEq] at hvalues
  obtain ⟨hnodes, hfootnotes⟩ := Context.render_again Node.echo {} []
  obtain ⟨hle, hagain⟩ := hfootnotes _ _ _ _ houtput
  exact ⟨body, noted, output, final, hbody, houtput, hvalues.1, hvalues.2.1, hvalues.2.2,
    (hnodes root context.depth _ _ _ hbody).2 context.depth final (Nat.le_refl _) hle, hagain⟩

end

end OutlineWiki
