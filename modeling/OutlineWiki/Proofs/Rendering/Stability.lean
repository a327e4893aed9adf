import OutlineWiki.Proofs.Footnotes.Registry
import OutlineWiki.Proofs.Rendering.Comparison

/-!
What a rendering leaves behind, and what it gives when it is done again.

A rendering only adds footnotes to the registry. Done once more, after it or after any
later rendering, it finds all its footnotes numbered, gives the same text and adds
nothing. So a text can be understood from the last registry of an export alone.
-/

namespace OutlineWiki
namespace Rendering

variable {α β : Type}

/-- Done again in any later registry, the other rendering gives the same and adds nothing. -/
def Settles (rendering other : Rendering α) : Prop :=
  ∀ notes result later, rendering.run notes = some (result, later) →
    notes ≤ later ∧ ∀ final, later ≤ final → other.run final = some (result, final)

theorem settles_pure (result : α) : Settles (pure result) (pure result) := by
  intro notes value later h
  obtain ⟨rfl, rfl⟩ := run_pure_eq_some h
  exact ⟨Footnotes.le_refl later, fun final _ => rfl⟩

theorem settles_bind {first other : Rendering α} {next more : α → Rendering β}
    (hfirst : Settles first other)
    (hnext : ∀ result, first.Gives result → Settles (next result) (more result)) :
    Settles (first >>= next) (other >>= more) := by
  intro notes value later h
  obtain ⟨result, between, hrun, hrest⟩ := run_bind_eq_some h
  obtain ⟨hle, hagain⟩ := hfirst notes result between hrun
  obtain ⟨hle', hagain'⟩ := hnext result ⟨notes, between, hrun⟩ between value later hrest
  refine ⟨Footnotes.le_trans hle hle', fun final hfinal => ?_⟩
  rw [run_bind, hagain final (Footnotes.le_trans hle' hfinal)]
  exact hagain' final hfinal

/-- Whatever the first rendering gives, the other one gives too. -/
def Extends (rendering other : Rendering α) : Prop :=
  ∀ notes result, rendering.run notes = some result → other.run notes = some result

theorem extends_pure (result : α) : Extends (pure result) (pure result) :=
  fun _ _ h => h

theorem extends_bind {first other : Rendering α} {next more : α → Rendering β}
    (hfirst : Extends first other)
    (hnext : ∀ result, first.Gives result → Extends (next result) (more result)) :
    Extends (first >>= next) (other >>= more) := by
  rintro notes ⟨value, later⟩ h
  obtain ⟨result, between, hrun, hrest⟩ := run_bind_eq_some h
  rw [run_bind, hfirst notes _ hrun]
  exact hnext result ⟨notes, between, hrun⟩ between _ hrest

end Rendering

open Rendering

def Comparison.settles : Comparison :=
  ⟨Settles, settles_pure, settles_bind⟩

def Comparison.extends : Comparison :=
  ⟨Extends, extends_pure, extends_bind⟩

namespace Markup

/-- The marker of a reference to the footnote with a number. -/
def referenceMarkup (context : Context) (node : Node) (number : Nat) : List Char :=
  (if (context.index.previous? node).any fun other => other.kind.isFootnoteReference then
    context.options.footnoteSeparator.toList
  else
    []) ++ Text.fill context.options.footnoteReferenceFormat.toList [digits number]

/-- A reference gives the markup for the number of its footnote, or nothing without a footnote. -/
theorem run_footnoteReference (context : Context) (node : Node) (notes : Footnotes) :
    (footnoteReference context node).run notes =
      some (((notes.number node).1.map (referenceMarkup context node)).getD [],
        notes.meet node) := by
  rw [footnoteReference, run_get_bind, Footnotes.meet]
  cases notes.number node with
  | mk number later => cases number <;> rfl

theorem footnoteReference_run (context : Context) {node : Node} {footnote : Footnote}
    (hf : node.footnote? = some footnote) (notes : Footnotes) :
    ∃ number, (notes.meet node).get? footnote = some number ∧
      (footnoteReference context node).run notes =
        some (referenceMarkup context node number, notes.meet node) := by
  obtain ⟨number, hn⟩ := notes.get?_meet_isSome hf
  refine ⟨number, hn, ?_⟩
  rw [run_footnoteReference, notes.number_fst hf, hn]
  rfl

theorem footnoteReference_run_other (context : Context) {node : Node}
    (hf : node.footnote? = none) (notes : Footnotes) :
    (footnoteReference context node).run notes = some ([], notes) := by
  rw [run_footnoteReference, Footnotes.meet, Footnotes.number_of_other hf]
  rfl

theorem footnoteReference_settles (context : Context) (node : Node) :
    Settles (footnoteReference context node) (footnoteReference context node) := by
  intro notes text later h
  cases hf : node.footnote? with
  | none =>
      rw [footnoteReference_run_other context hf] at h
      cases h
      exact ⟨Footnotes.le_refl notes, fun final _ => footnoteReference_run_other context hf final⟩
  | some footnote =>
      obtain ⟨number, hn, hrun⟩ := footnoteReference_run context hf notes
      rw [hrun] at h
      cases h
      refine ⟨notes.le_meet node, fun final hfinal => ?_⟩
      obtain ⟨again, hagain, hrun'⟩ := footnoteReference_run context hf final
      have hfn := Footnotes.get?_mono hfinal hn
      have hmeet : final.meet node = final := by
        rw [Footnotes.meet, Footnotes.number_of_get? hf hfn]
      rw [hmeet, hfn] at hagain
      cases hagain
      rw [hrun', hmeet]

theorem renderNode_settles (context : Context) {depth more : Nat} (h : depth ≤ more)
    (node : Node) :
    Settles (renderNode context depth node) (renderNode context more node) := by
  induction depth generalizing more node with
  | zero => intro notes text later hrun; cases hrun
  | succ depth ih =>
      obtain ⟨more, rfl⟩ : ∃ rest, more = rest + 1 := ⟨more - 1, by omega⟩
      exact renderWith_rel .settles (fun shown _ => ih (by omega) shown)
        fun _ => footnoteReference_settles context node

/-- A rendering that ends within a depth ends in the same way within a greater one. -/
theorem renderNode_extends (context : Context) {depth more : Nat} (h : depth ≤ more)
    (node : Node) :
    Extends (renderNode context depth node) (renderNode context more node) := by
  induction depth generalizing more node with
  | zero => intro notes result hrun; cases hrun
  | succ depth ih =>
      obtain ⟨more, rfl⟩ : ∃ rest, more = rest + 1 := ⟨more - 1, by omega⟩
      exact renderWith_rel .extends (fun shown _ => ih (by omega) shown)
        fun _ _ _ hrun => hrun

end Markup

namespace Context

theorem render_settles (context : Context) (node : Node) :
    Settles (context.render node) (context.render node) :=
  Markup.renderNode_settles context (Nat.le_refl _) node

theorem renderAll_settles (context : Context) (nodes : List Node) :
    Settles (Markup.renderAll context.render nodes) (Markup.renderAll context.render nodes) :=
  Markup.renderAll_rel .settles fun node _ => context.render_settles node

end Context
end OutlineWiki
