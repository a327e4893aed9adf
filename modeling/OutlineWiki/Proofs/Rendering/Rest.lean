import OutlineWiki.Proofs.Rendering.Stability
import OutlineWiki.Proofs.Text.Marks

/-!
Renderings that leave the registry as it is.

In the last registry of an export nothing is new. A rendering that ends there without a
change is made of parts that do so too, so its text can be taken apart in one registry.
-/

namespace OutlineWiki
namespace Rendering

variable {α β : Type} {notes : Footnotes}

/-- The rendering never takes a number away. -/
def Grows (rendering : Rendering α) : Prop :=
  ∀ notes result later, rendering.run notes = some (result, later) → notes ≤ later

theorem Settles.grows {rendering other : Rendering α} (h : Settles rendering other) :
    Grows rendering :=
  fun notes result later hrun => (h notes result later hrun).1

theorem grows_pure (result : α) : Grows (pure result) :=
  (settles_pure result).grows

theorem grows_bind {first : Rendering α} {next : α → Rendering β} (hfirst : Grows first)
    (hnext : ∀ result, first.Gives result → Grows (next result)) : Grows (first >>= next) := by
  intro notes value later h
  obtain ⟨result, between, hrun, hrest⟩ := run_bind_eq_some h
  exact Footnotes.le_trans (hfirst notes result between hrun)
    (hnext result ⟨notes, between, hrun⟩ between value later hrest)

/-- The rendering ends with the result and leaves the registry as it is. -/
def Rests (notes : Footnotes) (rendering : Rendering α) (result : α) : Prop :=
  rendering.run notes = some (result, notes)

theorem rests_pure {value result : α} (h : Rests notes (pure value) result) : result = value :=
  (run_pure_eq_some h).1

theorem rests_bind {first : Rendering α} {next : α → Rendering β} {value : β}
    (hfirst : Grows first) (hnext : ∀ result, first.Gives result → Grows (next result))
    (h : Rests notes (first >>= next) value) :
    ∃ result, Rests notes first result ∧ Rests notes (next result) value := by
  obtain ⟨result, between, hrun, hrest⟩ := run_bind_eq_some h
  have hsame : between = notes := Footnotes.le_antisymm
    (hnext result ⟨notes, between, hrun⟩ between value notes hrest)
    (hfirst notes result between hrun)
  subst hsame
  exact ⟨result, hrun, hrest⟩

/-- Whatever the rendering gives in the registry, the mark stands in it. -/
def Carries (notes : Footnotes) (mark : List Char) (rendering : Rendering (List Char)) : Prop :=
  ∀ text, Rests notes rendering text → mark <:+: text

theorem carries_pure {mark text : List Char} (h : mark <:+: text) :
    Carries notes mark (pure text) := by
  intro result hresult
  rwa [rests_pure hresult]

theorem carries_bind {mark : List Char} {first : Rendering α} {next : α → Rendering (List Char)}
    (hfirst : Grows first) (hnext : ∀ result, first.Gives result → Grows (next result))
    (h : ∀ result, Rests notes first result → Carries notes mark (next result)) :
    Carries notes mark (first >>= next) := by
  intro text htext
  obtain ⟨result, hresult, hrest⟩ := rests_bind hfirst hnext htext
  exact h result hresult text hrest

end Rendering

open Rendering

def Comparison.grows : Comparison :=
  ⟨fun rendering _ => Grows rendering, grows_pure, grows_bind⟩

namespace Markup

variable {context : Context} {notes : Footnotes} {render : Node → Rendering (List Char)}

theorem renderAll_grows (hg : ∀ node, Grows (render node)) (nodes : List Node) :
    Grows (renderAll render nodes) :=
  have hrel : Comparison.grows.Rel (renderAll render nodes) (renderAll render nodes) :=
    renderAll_rel .grows fun node _ => hg node
  hrel

theorem renderCaption_grows (hg : ∀ node, Grows (render node)) (caption : Option (List Node)) :
    Grows (renderCaption render caption) :=
  have hrel : Comparison.grows.Rel (renderCaption render caption) (renderCaption render caption) :=
    renderCaption_rel .grows fun _ _ node _ => hg node
  hrel

theorem renderParts_grows (hg : ∀ node, Grows (render node)) (nodes : List Node) :
    Grows (renderParts render nodes) :=
  have hrel : Comparison.grows.Rel (renderParts render nodes) (renderParts render nodes) :=
    renderParts_rel .grows fun node _ => hg node
  hrel

theorem format_grows (hg : ∀ node, Grows (render node)) (node : Node) {contents : List Char}
    (gives : descends node.kind = true → (renderAll render node.children).Gives contents) :
    Grows (format context render node contents) :=
  have hrel : Comparison.grows.Rel (format context render node contents)
      (format context render node contents) :=
    format_rel .grows gives (fun shown _ => hg shown)
      fun _ => (footnoteReference_settles context node).grows
  hrel

theorem renderAll_carries {mark : List Char} (hg : ∀ node, Grows (render node))
    {nodes : List Node} {node : Node} (hn : node ∈ nodes)
    (h : Carries notes mark (render node)) : Carries notes mark (renderAll render nodes) := by
  induction nodes with
  | nil => cases hn
  | cons first nodes ih =>
      refine carries_bind (hg first) (fun _ _ => grows_bind (renderAll_grows hg nodes)
        fun _ _ => grows_pure _) fun text htext => ?_
      apply carries_bind (renderAll_grows hg nodes) (fun _ _ => grows_pure _)
      intro rest hrest
      apply carries_pure
      obtain rfl | hmem := List.mem_cons.mp hn
      · exact List.infix_append_of_infix_left (h text htext)
      · exact List.infix_append_of_infix_right (ih hmem rest hrest)

theorem renderParts_carries {mark : List Char} (hg : ∀ node, Grows (render node))
    {nodes : List Node} {node : Node} (hn : node ∈ nodes)
    (h : Carries notes mark (render node)) {parts : List (Bool × List Char)}
    (hp : Rests notes (renderParts render nodes) parts) : ∃ part ∈ parts, mark <:+: part.2 := by
  induction nodes generalizing parts with
  | nil => cases hn
  | cons first nodes ih =>
      obtain ⟨text, htext, hrest⟩ := rests_bind (hg first) (fun _ _ =>
        grows_bind (renderParts_grows hg nodes) fun _ _ => grows_pure _) hp
      obtain ⟨rest, hrest, hparts⟩ := rests_bind (renderParts_grows hg nodes)
        (fun _ _ => grows_pure _) hrest
      rw [rests_pure hparts]
      obtain rfl | hmem := List.mem_cons.mp hn
      · exact ⟨_, List.mem_cons_self, h text htext⟩
      · obtain ⟨part, hpart, hin⟩ := ih hmem hrest
        exact ⟨part, List.mem_cons_of_mem _ hpart, hin⟩

theorem renderCaption_carries {mark : List Char} (hm : Text.IsMark mark)
    (hg : ∀ node, Grows (render node)) {nodes : List Node} {node : Node} (hn : node ∈ nodes)
    (h : Carries notes mark (render node)) {caption : Option (List Char)}
    (hc : Rests notes (renderCaption render (some nodes)) caption) :
    ∃ text, caption = some text ∧ mark <:+: text := by
  obtain ⟨text, htext, hsome⟩ := rests_bind (renderAll_grows hg nodes) (fun _ _ => grows_pure _) hc
  exact ⟨Text.trim text, rests_pure hsome, hm.infix_trim (renderAll_carries hg hn h text htext)⟩

end Markup
end OutlineWiki
