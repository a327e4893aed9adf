import OutlineWiki.Proofs.Rendering.Display

/-!
The nodes whose rendering gives numbers.

Each number belongs to a reference that some rendering met. So every reference of the last
registry is reached from where the export began to render, through nodes that present one
another or render one another without showing it.
-/

namespace OutlineWiki
namespace Footnotes

/-- All references of the registry satisfy a predicate. -/
def All (P : Node → Prop) (notes : Footnotes) : Prop :=
  ∀ reference ∈ notes.references, P reference

theorem all_empty (P : Node → Prop) : All P {} :=
  fun _ h => (List.not_mem_nil h).elim

theorem All.meet {P : Node → Prop} {notes : Footnotes} (h : notes.All P) {reference : Node}
    (hr : P reference) : (notes.meet reference).All P := by
  intro other ho
  rw [Footnotes.meet] at ho
  cases hf : reference.footnote? with
  | none =>
      rw [number_of_other hf] at ho
      exact h other ho
  | some footnote =>
      cases hn : notes.get? footnote with
      | some number =>
          rw [number_of_get? hf hn] at ho
          exact h other ho
      | none =>
          rw [number_of_new hf hn] at ho
          obtain ho | ho := List.mem_append.mp ho
          · exact h other ho
          · exact List.mem_singleton.mp ho ▸ hr

end Footnotes

namespace Rendering

variable {α β : Type} {final : Footnotes} {P : Node → Prop}

/-- As long as it stays below a registry, the rendering only adds references with a property. -/
def Tracks (final : Footnotes) (P : Node → Prop) (rendering : Rendering α) : Prop :=
  Grows rendering ∧ ∀ notes result later, rendering.run notes = some (result, later) →
    later ≤ final → notes.All P → later.All P

theorem tracks_pure (result : α) : Tracks final P (pure result) := by
  refine ⟨grows_pure result, fun notes value later h _ hp => ?_⟩
  obtain ⟨rfl, rfl⟩ := run_pure_eq_some h
  exact hp

theorem tracks_bind {first : Rendering α} {next : α → Rendering β} (hfirst : Tracks final P first)
    (hnext : ∀ result, first.Gives result → Tracks final P (next result)) :
    Tracks final P (first >>= next) := by
  refine ⟨grows_bind hfirst.1 fun result hgives => (hnext result hgives).1, ?_⟩
  intro notes value later h hle hp
  obtain ⟨result, between, hrun, hrest⟩ := run_bind_eq_some h
  obtain ⟨hgrows, htracks⟩ := hnext result ⟨notes, between, hrun⟩
  have hbetween := Footnotes.le_trans (hgrows between value later hrest) hle
  exact htracks between value later hrest hle (hfirst.2 notes result between hrun hbetween hp)

end Rendering

open Rendering

def Comparison.tracks (final : Footnotes) (P : Node → Prop) : Comparison :=
  ⟨fun rendering _ => Tracks final P rendering, tracks_pure, tracks_bind⟩

namespace Markup

variable {context : Context} {final : Footnotes} {P : Node → Prop}

theorem footnoteReference_tracks (context : Context) {node : Node} (hn : P node) :
    Tracks final P (footnoteReference context node) := by
  refine ⟨(footnoteReference_settles context node).grows, fun notes text later h _ hp => ?_⟩
  cases hf : node.footnote? with
  | none =>
      rw [footnoteReference_run_other context hf] at h
      cases h
      exact hp
  | some footnote =>
      obtain ⟨number, _, hrun⟩ := footnoteReference_run context hf notes
      rw [hrun] at h
      cases h
      exact hp.meet hn

theorem renderAll_tracks {render : Node → Rendering (List Char)} {nodes : List Node}
    (h : ∀ node ∈ nodes, Tracks final P (render node)) : Tracks final P (renderAll render nodes) :=
  have hrel : (Comparison.tracks final P).Rel (renderAll render nodes) (renderAll render nodes) :=
    renderAll_rel (.tracks final P) h
  hrel

variable (hclosed : ∀ node other, P node →
  context.Presents final (fun _ => True) node other → P other)
include hclosed

/-- An image shows a caption only if its contents, which come first, allow it. So the step is
made by hand, with what the contents give in the last registry. -/
theorem renderNode_link_tracks {depth : Nat} (hdepth : depth ≤ context.depth) {node : Node}
    {type : LinkType} {path : String} (kind : node.kind = .link type path) (hn : P node)
    (ih : ∀ other, P other → Tracks final P (renderNode context depth other)) :
    Tracks final P (renderNode context (depth + 1) node) := by
  refine ⟨renderNode_grows context (depth + 1) node, ?_⟩
  intro notes text later hrun hle hp
  have hd : descends node.kind = true := by rw [kind]; rfl
  have hrun : (renderWith context (renderNode context depth) node).run notes =
    some (text, later) := hrun
  rw [renderWith_eq] at hrun
  obtain ⟨contents, between, hcontents, hrest⟩ := run_bind_eq_some hrun
  obtain ⟨markup, after, hmarkup, hend⟩ := run_bind_eq_some hrest
  obtain ⟨_, rfl⟩ := run_pure_eq_some hend
  have hbetween : between ≤ later := by
    refine format_grows (renderNode_grows context depth) node (fun _ => ?_) _ _ _ hmarkup
    rw [contentsOf, if_pos hd] at hcontents
    exact ⟨notes, between, hcontents⟩
  have hchildren : Tracks final P (contentsOf (renderNode context depth) node) := by
    rw [contentsOf, if_pos hd]
    exact renderAll_tracks fun child hc =>
      ih child (hclosed node child hn (.child (.inl hd) trivial hc))
  have hrests : Rests final (renderAll context.render node.children) contents := by
    have hsettles : Settles (renderAll (renderNode context depth) node.children)
        (renderAll context.render node.children) :=
      renderAll_rel .settles fun child _ => renderNode_settles context hdepth child
    rw [contentsOf, if_pos hd] at hcontents
    exact (hsettles notes contents between hcontents).2 final (Footnotes.le_trans hbetween hle)
  have hlink : (Comparison.tracks final P).Rel
      (link context (renderNode context depth) node type path contents)
      (link context (renderNode context depth) node type path contents) := by
    refine link_rel (.tracks final P) (fun htype target htarget shown hs => ?_)
      fun himage block caption hblock hcaption shown hs => ?_
    · subst htype
      exact ih shown (hclosed node shown hn (.radio kind htarget hs))
    · exact ih shown (hclosed node shown hn (.image kind hrests himage hblock hcaption hs))
  rw [format, kind] at hmarkup
  exact hlink.2 between markup later hmarkup hle
    (hchildren.2 notes contents between hcontents (Footnotes.le_trans hbetween hle) hp)

/-- A rendering only adds references with a property that nodes hand on. -/
theorem renderNode_tracks {depth : Nat} (hdepth : depth ≤ context.depth) {node : Node}
    (hn : P node) : Tracks final P (renderNode context depth node) := by
  induction depth generalizing node with
  | zero =>
      refine ⟨renderNode_grows context 0 node, fun notes text later h => ?_⟩
      cases h
  | succ depth ih =>
      have ih : ∀ other, P other → Tracks final P (renderNode context depth other) :=
        fun other ho => ih (Nat.le_of_succ_le hdepth) ho
      by_cases hlink : ∃ type path, node.kind = .link type path
      · obtain ⟨type, path, kind⟩ := hlink
        exact renderNode_link_tracks hclosed (Nat.le_of_succ_le hdepth) kind hn ih
      · have hrel : (Comparison.tracks final P).Rel
            (renderWith context (renderNode context depth) node)
            (renderWith context (renderNode context depth) node) := by
          refine renderWith_rel (.tracks final P) (fun shown hs => ih shown ?_)
            fun _ => footnoteReference_tracks context hn
          apply hclosed node shown hn
          cases hs with
          | child hd mem => exact .child (.inl hd) trivial mem
          | part kind mem => exact .child (.inr ⟨_, _, kind⟩) trivial mem
          | title kind shown mem => exact .title kind shown mem
          | tag kind mem => exact .tag kind mem
          | caption kind shown mem => exact .caption kind shown mem
          | radio kind leads mem => exact .radio kind leads mem
          | image kind _ _ _ _ _ => exact absurd ⟨_, _, kind⟩ hlink
        exact hrel

end Markup
end OutlineWiki
