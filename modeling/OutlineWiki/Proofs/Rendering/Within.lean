import OutlineWiki.Export
import OutlineWiki.Proofs.Outline.Walk
import OutlineWiki.Proofs.Rendering.Stability

/-!
A rendering stays within its tree.

Links and images make a node show others that lie elsewhere, but never outside the tree
that the context was made for. So the registry only ever holds references of that tree,
one for each footnote.
-/

namespace OutlineWiki
namespace Rendering

variable {α β : Type} {P : Footnotes → Prop}

/-- The rendering leads from registries with a property to registries with this property. -/
def Keeps (P : Footnotes → Prop) (rendering : Rendering α) : Prop :=
  ∀ notes result later, rendering.run notes = some (result, later) → P notes → P later

theorem keeps_pure (result : α) : Keeps P (pure result) := by
  intro notes value later h hp
  obtain ⟨rfl, rfl⟩ := run_pure_eq_some h
  exact hp

theorem keeps_bind {first : Rendering α} {next : α → Rendering β} (hfirst : Keeps P first)
    (hnext : ∀ result, first.Gives result → Keeps P (next result)) :
    Keeps P (first >>= next) := by
  intro notes value later h hp
  obtain ⟨result, between, hrun, hrest⟩ := run_bind_eq_some h
  exact hnext result ⟨notes, between, hrun⟩ between value later hrest
    (hfirst notes result between hrun hp)

end Rendering

open Rendering

def Comparison.keeps (P : Footnotes → Prop) : Comparison :=
  ⟨fun rendering _ => Keeps P rendering, keeps_pure, keeps_bind⟩

/-- All nodes that the context leads to lie in the tree. -/
structure Context.Within (context : Context) (root : Node) : Prop where
  caption : ∀ {node : Node} {caption : List Node}, node ∈ root.walk →
    context.host.caption node = some caption → ∀ other ∈ caption, other ∈ root.walk
  radio : ∀ {node target : Node},
    context.host.radioTarget node = some target → target ∈ root.walk
  block : ∀ {node block : Node},
    context.index.parentBlock? node = some block → block ∈ root.walk

theorem Survey.radioTarget_mem {root link target : Node} {options : Options}
    {externalIds : List (String × String)}
    (h : (Survey.ofTree root options externalIds).radioTarget link = some target) :
    target ∈ root.walk := by
  rw [Survey.radioTarget] at h
  split at h
  · cases h
  · obtain ⟨entry, hentry, rfl⟩ := Option.map_eq_some_iff.mp h
    obtain ⟨node, hnode, rfl⟩ := List.mem_map.mp (List.mem_of_find?_eq_some hentry)
    exact (List.mem_filter.mp hnode).1

theorem Context.ofTree_within (root : Node) (options : Options)
    (externalIds : List (String × String)) :
    (Context.ofTree root options externalIds).Within root where
  caption hnode hcaption _ ho :=
    Node.mem_walk_trans
      (Node.mem_walk_of_mem_members
        (Node.mem_members_of_caption (Option.filter_eq_some_iff.mp hcaption).1 ho)) hnode
  radio h := Survey.radioTarget_mem h
  block h := Index.parentBlock?_mem h

namespace Markup

variable {context : Context} {root : Node}

theorem mem_walk_of_shows (within : context.Within root)
    {render : Node → Rendering (List Char)} {node other : Node} (hn : node ∈ root.walk)
    (h : Shows context render node other) : other ∈ root.walk := by
  have hmember : ∀ {owner : Node}, owner ∈ root.walk → other ∈ owner.members →
      other ∈ root.walk :=
    fun ho hm => Node.mem_walk_trans (Node.mem_walk_of_mem_members hm) ho
  cases h with
  | child _ mem | part _ mem => exact hmember hn (Node.mem_members_of_children mem)
  | title kind _ mem => exact hmember hn (Node.mem_members_of_title kind mem)
  | tag kind mem => exact hmember hn (Node.mem_members_of_tag kind mem)
  | caption _ shown mem => exact within.caption hn shown other mem
  | radio _ leads mem =>
      exact hmember (within.radio leads) (Node.mem_members_of_children mem)
  | image _ _ _ stands shown mem => exact within.caption (within.block stands) shown other mem

end Markup

/-- The registry holds references of the tree, one for each footnote. -/
structure Footnotes.Of (root : Node) (notes : Footnotes) : Prop where
  mem : ∀ reference ∈ notes.references, reference ∈ root.walk
  footnote : ∀ reference ∈ notes.references, reference.footnote?.isSome = true
  distinct : (notes.references.map Node.footnote?).Nodup

namespace Footnotes

theorem of_empty (root : Node) : Of root {} :=
  ⟨fun _ h => (List.not_mem_nil h).elim, fun _ h => (List.not_mem_nil h).elim, List.nodup_nil⟩

theorem Of.meet {root reference : Node} {notes : Footnotes} (h : Of root notes)
    (hr : reference ∈ root.walk) : Of root (notes.meet reference) := by
  rw [Footnotes.meet]
  cases hf : reference.footnote? with
  | none => rwa [number_of_other hf]
  | some footnote =>
      cases hn : notes.get? footnote with
      | some number => rwa [number_of_get? hf hn]
      | none =>
          rw [number_of_new hf hn]
          have hnew := get?_eq_none_iff.mp hn
          constructor
          · intro other ho
            obtain ho | ho := List.mem_append.mp ho
            · exact h.mem other ho
            · exact List.mem_singleton.mp ho ▸ hr
          · intro other ho
            obtain ho | ho := List.mem_append.mp ho
            · exact h.footnote other ho
            · rw [List.mem_singleton.mp ho, hf]
              rfl
          · rw [List.map_append, List.nodup_append]
            refine ⟨h.distinct, List.nodup_singleton _, fun a ha b hb => ?_⟩
            rw [List.map_singleton, List.mem_singleton, hf] at hb
            exact fun hab => hnew (hb ▸ hab ▸ ha)

/-- The footnote of the reference at a place has the number after this place. -/
theorem Of.get?_of_referenceAt? {root reference : Node} {notes : Footnotes} (h : Of root notes)
    {place : Nat} (hr : notes.referenceAt? place = some reference) :
    ∃ footnote, reference.footnote? = some footnote ∧
      notes.get? footnote = some (place + 1) := by
  obtain ⟨hlt, hat⟩ := List.getElem?_eq_some_iff.mp hr
  obtain ⟨footnote, hf⟩ := Option.isSome_iff_exists.mp
    (h.footnote reference (hat ▸ List.getElem_mem hlt))
  refine ⟨footnote, hf, get?_eq_some_iff.mpr ⟨place, rfl, ?_⟩⟩
  rw [List.findIdx?_eq_some_iff_getElem]
  refine ⟨hlt, by rw [hat, hf]; exact beq_self_eq_true _, fun earlier he => ?_⟩
  have hne := List.pairwise_iff_getElem.mp h.distinct earlier place
    (by simpa using Nat.lt_trans he hlt) (by simpa using hlt) he
  rw [List.getElem_map, List.getElem_map, hat, hf] at hne
  simpa using hne

end Footnotes

namespace Markup

variable {context : Context} {root : Node}

theorem footnoteReference_keeps (context : Context) {node : Node} (hn : node ∈ root.walk) :
    Keeps (Footnotes.Of root) (footnoteReference context node) := by
  intro notes text later h hof
  cases hf : node.footnote? with
  | none =>
      rw [footnoteReference_run_other context hf] at h
      cases h
      exact hof
  | some footnote =>
      obtain ⟨number, _, hrun⟩ := footnoteReference_run context hf notes
      rw [hrun] at h
      cases h
      exact hof.meet hn

theorem renderAll_keeps {P : Footnotes → Prop} {render : Node → Rendering (List Char)}
    {nodes : List Node} (h : ∀ node ∈ nodes, Keeps P (render node)) :
    Keeps P (renderAll render nodes) :=
  have hrel : (Comparison.keeps P).Rel (renderAll render nodes) (renderAll render nodes) :=
    renderAll_rel (.keeps P) h
  hrel

theorem renderNode_keeps (within : context.Within root) (depth : Nat) {node : Node}
    (hn : node ∈ root.walk) : Keeps (Footnotes.Of root) (renderNode context depth node) := by
  induction depth generalizing node with
  | zero => intro notes text later h; cases h
  | succ depth ih =>
      have hrel : (Comparison.keeps (Footnotes.Of root)).Rel
          (renderWith context (renderNode context depth) node)
          (renderWith context (renderNode context depth) node) :=
        renderWith_rel (.keeps (Footnotes.Of root))
          (fun shown hs => ih (mem_walk_of_shows within hn hs))
          fun _ => footnoteReference_keeps context hn
      exact hrel

end Markup
end OutlineWiki
