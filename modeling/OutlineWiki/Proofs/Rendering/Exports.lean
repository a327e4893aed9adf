import OutlineWiki.Proofs.Footnotes.Section
import OutlineWiki.Proofs.Rendering.Correspondence

/-!
Exports of corresponding trees.

An export is the body with the entries of the footnotes behind it. How deep renderings may go
and how many turns the section may take is given by the size of the tree, but a greater depth
and more turns change nothing in an export that ends. So exports of trees of different sizes
are compared within bounds that are enough for both.
-/

namespace OutlineWiki
namespace Context

open Markup Rendering

/-- An export in which renderings go to a given depth and the section takes so many turns. -/
def exportWithin (context : Context) (depth turns : Nat) (root : Node) : Rendering (List Char) :=
  renderNode context depth root >>= fun body =>
    footnoteEntries context (renderNode context depth) turns 0 >>= fun entries =>
      pure (context.assembled body entries)

theorem renderDocument_eq (context : Context) (root : Node) :
    context.renderDocument root = context.exportWithin context.depth (context.depth + 1) root := by
  refine bind_congr fun body => ?_
  rw [withFootnotes_eq, bind_assoc]
  rfl

/-- More depth and more turns change nothing in an export that ends. -/
theorem exportWithin_extends (context : Context) {depth more turns fuel : Nat}
    (hd : depth ≤ more) (ht : turns ≤ fuel) (root : Node) :
    Extends (context.exportWithin depth turns root) (context.exportWithin more fuel root) :=
  extends_bind (renderNode_extends context hd root) fun _ _ =>
    extends_bind (footnoteEntries_extends (renderNode_extends context hd) ht 0) fun _ _ =>
      extends_pure _

/-- Corresponding trees have the same export within the same bounds. -/
theorem exportWithin_agrees {context other : Context} {R : Nat → Node → Node → Prop}
    (h : Corresponds context other R) {depth : Nat} {root more : Node} (hroot : R depth root more)
    (turns : Nat) :
    (context.exportWithin depth turns root).run' {} =
      (other.exportWithin depth turns more).run' {} := by
  have hagrees : Agrees (Footnotes.Twin (Steady R)) Eq (context.exportWithin depth turns root)
      (other.exportWithin depth turns more) := by
    have hassembled : context.assembled = other.assembled := by
      funext contents entries
      have hsection : context.sectionAround entries = other.sectionAround entries := by
        rw [sectionAround, sectionAround,
          h.setting_eq (·.footnotesSectionTemplate) fun _ => rfl, h.localize]
      rw [assembled, assembled, hsection]
    rw [exportWithin, exportWithin, hassembled]
    exact agrees_bind_eq (h.renderNode_agrees hroot) fun body =>
      agrees_bind_eq (h.footnoteEntries_agrees depth turns 0) fun entries => agrees_pure rfl
  have hruns := hagrees {} {} (Footnotes.twin_empty _)
  change ((context.exportWithin depth turns root).run {}).map (·.1) =
    ((other.exportWithin depth turns more).run {}).map (·.1)
  generalize (context.exportWithin depth turns root).run {} = result,
    (other.exportWithin depth turns more).run {} = value at hruns
  cases hruns with
  | none => rfl
  | some hboth => exact congrArg some hboth.1

end Context
end OutlineWiki
