import Mathlib.Data.List.Dedup
import Mathlib.Data.List.Perm.Subperm
import OutlineWiki.Outline.Build
import OutlineWiki.Proofs.Footnotes.Section
import OutlineWiki.Proofs.Rendering.Reach

/-!
Renderings that come to an end.

As long as no node is rendered inside of itself, the nodes that are being rendered at one
time are all different, so there are never more of them than the tree has. The section of
footnotes starts one rendering for each number. The numbers belong to different footnotes of
the tree, so that the section ends however the footnotes refer to one another.
-/

namespace OutlineWiki
namespace Rendering

variable {α β : Type}

/-- The rendering comes to an end, whatever footnotes have numbers. -/
def Ends (rendering : Rendering α) : Prop :=
  ∀ notes, ∃ result, rendering.run notes = some result

theorem ends_pure (result : α) : Ends (pure result) :=
  fun notes => ⟨(result, notes), rfl⟩

theorem ends_bind {first : Rendering α} {next : α → Rendering β} (hfirst : Ends first)
    (hnext : ∀ result, first.Gives result → Ends (next result)) : Ends (first >>= next) := by
  intro notes
  obtain ⟨⟨result, later⟩, hrun⟩ := hfirst notes
  obtain ⟨last, hlast⟩ := hnext result ⟨notes, later, hrun⟩ later
  exact ⟨last, by rw [run_bind, hrun]; exact hlast⟩

end Rendering

open Rendering

def Comparison.ends : Comparison :=
  ⟨fun rendering _ => Ends rendering, ends_pure, ends_bind⟩

/-- The footnotes that are referred to in a tree, each of them once. -/
def Node.footnotes (root : Node) : List Footnote :=
  (root.walk.filterMap footnote?).dedup

theorem Node.length_footnotes_le (root : Node) :
    root.footnotes.length ≤ (Index.ofTree root).size := by
  rw [Index.size_ofTree]
  exact Nat.le_trans (List.dedup_sublist _).length_le (List.length_filterMap_le _ _)

namespace Context

open Markup

/-- Rendering the one node renders the other one on the way. -/
def Renders (context : Context) : Node → Node → Prop :=
  Shows context context.render

/-- The nodes that an export renders: the tree with all that it shows, and the texts of the
footnotes that are referred to. -/
inductive Reaches (context : Context) (root : Node) : Node → Prop where
  | root : Reaches context root root
  | shown {node other : Node} (h : Reaches context root node) (shows : context.Renders node other) :
      Reaches context root other
  | text {reference other : Node} {nodes : List Node} (h : Reaches context root reference)
      (text : context.index.footnoteText? reference = some nodes) (mem : other ∈ nodes) :
      Reaches context root other

/-- No node is rendered while it is being rendered. -/
def Acyclic (context : Context) (root : Node) : Prop :=
  ∀ node, context.Reaches root node → ¬ Relation.TransGen context.Renders node node

variable {context : Context} {root : Node}

theorem Reaches.mem_walk (within : context.Within root) (hindex : context.index = Index.ofTree root)
    {node : Node} (h : context.Reaches root node) : node ∈ root.walk := by
  induction h with
  | root => exact root.mem_walk_self
  | shown _ hshows ih => exact mem_walk_of_shows within ih hshows
  | text _ text mem ih =>
      rw [hindex] at text
      exact Index.footnoteText?_mem ih text mem

end Context

namespace Markup

variable {context : Context} {root : Node}

/-- What shows in a rendering within a depth shows in the full one. -/
theorem Shows.full {depth : Nat} (hd : depth ≤ context.depth) {node other : Node}
    (h : Shows context (renderNode context depth) node other) : context.Renders node other := by
  cases h with
  | child descends mem => exact .child descends mem
  | part kind mem => exact .part kind mem
  | title kind shown mem => exact .title kind shown mem
  | tag kind mem => exact .tag kind mem
  | caption kind shown mem => exact .caption kind shown mem
  | radio kind leads mem => exact .radio kind leads mem
  | image kind gives image stands shown mem =>
      obtain ⟨notes, later, hrun⟩ := gives
      have hextends : Extends (renderAll (renderNode context depth) node.children)
          (renderAll context.render node.children) :=
        renderAll_rel .extends fun child _ => renderNode_extends context hd child
      exact .image kind ⟨notes, later, hextends notes _ hrun⟩ image stands shown mem

theorem footnoteReference_ends (context : Context) (node : Node) :
    Ends (footnoteReference context node) :=
  fun notes => ⟨_, run_footnoteReference context node notes⟩

/-- The nodes that are being rendered are different nodes of the tree, so the depth lasts. -/
theorem renderNode_ends (within : context.Within root) (hindex : context.index = Index.ofTree root)
    (h : context.Acyclic root) {depth : Nat} (hd : depth ≤ context.depth) {stack : List Node}
    {node : Node} (hnode : context.Reaches root node)
    (hmem : ∀ upper ∈ node :: stack, upper ∈ root.walk) (hnodup : (node :: stack).Nodup)
    (hstack : ∀ upper ∈ stack, Relation.TransGen context.Renders upper node)
    (hlength : root.walk.length ≤ depth + stack.length) :
    Ends (renderNode context depth node) := by
  induction depth generalizing stack node with
  | zero =>
      -- No depth is left, but then there are more different nodes than the tree has.
      have hle := (List.subperm_of_subset hnodup hmem).length_le
      rw [List.length_cons] at hle
      omega
  | succ depth ih =>
      have hd' : depth ≤ context.depth := Nat.le_of_succ_le hd
      have hrel : Comparison.ends.Rel (renderWith context (renderNode context depth) node)
          (renderWith context (renderNode context depth) node) := by
        refine renderWith_rel .ends (fun shown hs => ?_)
          fun _ => footnoteReference_ends context node
        have hshows := hs.full hd'
        have hshown : context.Reaches root shown := .shown hnode hshows
        have hstack' : ∀ upper ∈ node :: stack, Relation.TransGen context.Renders upper shown :=
          List.forall_mem_cons.mpr ⟨.single hshows, fun upper hu => (hstack upper hu).tail hshows⟩
        have hnot : shown ∉ node :: stack := fun hn => h shown hshown (hstack' shown hn)
        refine ih hd' hshown
          (List.forall_mem_cons.mpr ⟨hshown.mem_walk within hindex, hmem⟩)
          (List.nodup_cons.mpr ⟨hnot, hnodup⟩) hstack' ?_
        rw [List.length_cons]
        omega
      exact hrel

theorem render_ends (within : context.Within root) (hindex : context.index = Index.ofTree root)
    (h : context.Acyclic root) {node : Node} (hnode : context.Reaches root node) :
    Ends (context.render node) := by
  refine renderNode_ends within hindex h (Nat.le_refl _) hnode
    (List.forall_mem_singleton.mpr (hnode.mem_walk within hindex)) (List.nodup_singleton node)
    (List.forall_mem_nil _) ?_
  rw [Context.depth, hindex, Index.size_ofTree]
  exact Nat.le_refl _

theorem footnoteReference_keeps_all {P : Node → Prop} {node : Node} (hn : P node) :
    Keeps (Footnotes.All P) (footnoteReference context node) := by
  intro notes text later h hp
  rw [run_footnoteReference] at h
  cases h
  exact hp.meet hn

/-- A rendering only gives numbers to references with a property that nodes hand on. -/
theorem renderNode_keeps_all {P : Node → Prop}
    (hclosed : ∀ node other, P node → context.Renders node other → P other) {depth : Nat}
    (hd : depth ≤ context.depth) {node : Node} (hn : P node) :
    Keeps (Footnotes.All P) (renderNode context depth node) := by
  induction depth generalizing node with
  | zero => intro notes text later h; cases h
  | succ depth ih =>
      have hd' : depth ≤ context.depth := Nat.le_of_succ_le hd
      have hrel : (Comparison.keeps (Footnotes.All P)).Rel
          (renderWith context (renderNode context depth) node)
          (renderWith context (renderNode context depth) node) :=
        renderWith_rel (.keeps (Footnotes.All P))
          (fun shown hs => ih hd' (hclosed node shown hn (hs.full hd')))
          fun _ => footnoteReference_keeps_all hn
      exact hrel

/-- The registry of an export: it holds references that were rendered, one for each footnote. -/
structure Noted (context : Context) (root : Node) (notes : Footnotes) : Prop where
  of : Footnotes.Of root notes
  reached : notes.All (context.Reaches root)

theorem renderNode_noted (within : context.Within root) (hindex : context.index = Index.ofTree root)
    {node : Node} (hn : context.Reaches root node) :
    Keeps (Noted context root) (context.render node) := by
  intro notes text later h hnoted
  exact ⟨renderNode_keeps within _ (hn.mem_walk within hindex) notes text later h hnoted.of,
    renderNode_keeps_all (fun _ _ hnode hshows => .shown hnode hshows) (Nat.le_refl _) hn
      notes text later h hnoted.reached⟩

theorem size_le_footnotes {notes : Footnotes} (h : Footnotes.Of root notes) :
    notes.size ≤ root.footnotes.length := by
  have hsubset : notes.references.map Node.footnote? ⊆ root.footnotes.map some := by
    intro footnote hf
    obtain ⟨reference, hr, rfl⟩ := List.mem_map.mp hf
    obtain ⟨own, hown⟩ := Option.isSome_iff_exists.mp (h.footnote reference hr)
    rw [hown]
    refine List.mem_map_of_mem (List.mem_dedup.mpr (List.mem_filterMap.mpr ?_))
    exact ⟨reference, h.mem reference hr, hown⟩
  have hle := (List.subperm_of_subset h.distinct hsubset).length_le
  rwa [List.length_map, List.length_map] at hle

/-- Each turn of the loop is at a number that a footnote of the tree has by then. -/
theorem footnoteEntries_ends (within : context.Within root)
    (hindex : context.index = Index.ofTree root) (h : context.Acyclic root) {fuel place : Nat}
    {notes : Footnotes} (hnoted : Noted context root notes) (hp : place ≤ notes.size)
    (hf : root.footnotes.length < fuel + place) :
    ∃ result, (footnoteEntries context context.render fuel place).run notes = some result := by
  induction fuel generalizing place notes with
  | zero =>
      have hsize := size_le_footnotes hnoted.of
      omega
  | succ fuel ih =>
      cases hr : notes.referenceAt? place with
      | none => exact ⟨_, footnoteEntries_none hr⟩
      | some reference =>
          have hlt : place < notes.size := (List.getElem?_eq_some_iff.mp hr).1
          cases ht : context.index.footnoteText? reference with
          | none =>
              rw [footnoteEntries_skip hr ht]
              exact ih hnoted hlt (by omega)
          | some nodes =>
              have hreached : ∀ node ∈ nodes, context.Reaches root node := fun node hn =>
                .text (hnoted.reached reference (List.mem_of_getElem? hr)) ht hn
              have hends : Comparison.ends.Rel (renderAll context.render nodes)
                  (renderAll context.render nodes) :=
                renderAll_rel .ends fun node hn => render_ends within hindex h (hreached node hn)
              obtain ⟨⟨text, between⟩, hrun⟩ := hends notes
              have hbetween : Noted context root between :=
                renderAll_keeps (fun node hn => renderNode_noted within hindex (hreached node hn))
                  notes text between hrun hnoted
              -- The text may add footnotes, and the bound on their number still holds.
              have hle := (context.renderAll_settles nodes notes text between hrun).1.length_le
              obtain ⟨⟨rest, later⟩, hrest⟩ :=
                ih hbetween (Nat.le_trans hlt hle) (by omega)
              refine ⟨(footnoteEntry (place + 1) text :: rest, later), ?_⟩
              rw [footnoteEntries_text hr ht, run_bind, hrun]
              change (footnoteEntries context context.render fuel (place + 1) >>= _).run between = _
              rw [run_bind, hrest]
              rfl

end Markup

namespace Context

open Markup

section Whole

variable {context : Context} {root : Node}

/-- Nothing can fail in the section of footnotes but the loop. -/
theorem footnotesSection_of_entries {notes final : Footnotes} {entries : List (List Char)}
    (h : (footnoteEntries context context.render (context.index.size + 1) 0).run notes =
      some (entries, final)) :
    context.footnotesSection.run notes = some (context.sectionAround entries, final) := by
  rw [footnotesSection, run_bind, h, sectionAround]
  dsimp only [Option.bind_some]
  split <;> rfl

/-- An export comes to an end when its body and its section do. -/
theorem exists_renderDocument_run {body shown : List Char} {notes noted final : Footnotes}
    (hbody : (context.render root).run notes = some (body, noted))
    (hsection : context.footnotesSection.run noted = some (shown, final)) :
    ∃ output, (context.renderDocument root).run notes = some (output, final) := by
  have hwith : ∃ output, (context.withFootnotes body).run noted = some (output, final) := by
    rw [withFootnotes, run_bind, hsection]
    dsimp only [Option.bind_some]
    split <;> exact ⟨_, rfl⟩
  obtain ⟨output, houtput⟩ := hwith
  refine ⟨output, ?_⟩
  rw [renderDocument, run_bind, hbody]
  change (context.withFootnotes body >>= _).run noted = some (output, final)
  rw [run_bind, houtput]
  rfl

end Whole

/-- An export comes to an end when no node is rendered inside of itself, whatever the footnotes
refer to. Every rendering on the way ends, and no depth beyond the given one would change it.
The section of footnotes takes one turn for each footnote of the tree at most. -/
theorem renderDocument_terminates (root : Node) (options : Options)
    (externalIds : List (String × String))
    (h : (Context.ofTree root.prepare options externalIds).Acyclic root.prepare) :
    let context := Context.ofTree root.prepare options externalIds
    let footnotes := root.prepare.footnotes
    (∀ node, context.Reaches root.prepare node → ∀ notes, ∃ result, ∀ depth,
      context.depth ≤ depth → (renderNode context depth node).run notes = some result) ∧
    ∃ body noted entries final output,
      (context.render root.prepare).run {} = some (body, noted) ∧
      (∀ fuel, footnotes.length < fuel →
        (footnoteEntries context context.render fuel 0).run noted = some (entries, final)) ∧
      final.size ≤ footnotes.length ∧
      (context.renderDocument root.prepare).run {} = some (output, final) := by
  intro context footnotes
  have within : context.Within root.prepare := Context.ofTree_within _ _ _
  have hrender : ∀ node, context.Reaches root.prepare node → Ends (context.render node) :=
    fun node hn => render_ends within rfl h hn
  refine ⟨fun node hn notes => ?_, ?_⟩
  · obtain ⟨result, hrun⟩ := hrender node hn notes
    exact ⟨result, fun depth hd => renderNode_extends context hd node notes result hrun⟩
  · obtain ⟨⟨body, noted⟩, hbody⟩ := hrender root.prepare .root {}
    have hnoted : Noted context root.prepare noted :=
      renderNode_noted within rfl .root _ _ _ hbody
        ⟨Footnotes.of_empty _, Footnotes.all_empty _⟩
    obtain ⟨⟨entries, final⟩, hentries⟩ := footnoteEntries_ends within rfl h hnoted
      (Nat.zero_le _) (Nat.lt_succ_self footnotes.length)
    have hloop : ∀ fuel, footnotes.length < fuel →
        (footnoteEntries context context.render fuel 0).run noted = some (entries, final) :=
      fun fuel hf => footnoteEntries_extends (fun _ _ _ hrun => hrun) hf 0 noted _ hentries
    have hfinal : Footnotes.Of root.prepare final :=
      footnoteEntries_keeps within (fun _ hr _ ht _ hn => Index.footnoteText?_mem hr ht hn)
        _ _ _ _ _ hentries hnoted.of
    have hsection := footnotesSection_of_entries
      (hloop _ (Nat.lt_succ_of_le (Node.length_footnotes_le root.prepare)))
    obtain ⟨output, houtput⟩ := exists_renderDocument_run hbody hsection
    exact ⟨body, noted, entries, final, output, hbody, hloop, size_le_footnotes hfinal, houtput⟩

/-- The nodes that a node may show, whatever the rendering of its children gives. -/
def shownNodes (context : Context) (node : Node) : List Node :=
  node.children ++ node.kind.lists.flatten ++
    match node.kind with
    | .table _ _ => (context.host.caption node).getD []
    | .link .radio _ => ((context.host.radioTarget node).map (·.children)).getD []
    | .link _ _ => ((context.index.parentBlock? node).bind context.host.caption).getD []
    | _ => []

theorem Renders.mem_shownNodes {context : Context} {node other : Node}
    (h : context.Renders node other) : other ∈ context.shownNodes node := by
  rw [shownNodes, List.mem_append, List.mem_append]
  cases h with
  | child _ mem | part _ mem => exact .inl (.inl mem)
  | title kind _ mem => exact .inl (.inr (by simpa [kind, Kind.lists] using mem))
  | tag kind mem => exact .inl (.inr (by simpa [kind, Kind.lists] using mem))
  | caption kind shown mem => exact .inr (by simpa [kind, shown] using mem)
  | radio kind leads mem => exact .inr (by simpa [kind, leads] using mem)
  | @image block type path contents caption kind _ image stands shown mem =>
      right
      cases type with
      | radio => cases image
      | _ => simpa [kind, stands, shown] using mem

/-- No node is rendered inside of itself when all that a node may show is of lower rank. -/
theorem acyclic_of_rank {context : Context} {root : Node} (within : context.Within root)
    (hindex : context.index = Index.ofTree root) (rank : Node → Nat)
    (h : ∀ node ∈ root.walk, ∀ other ∈ context.shownNodes node, rank other < rank node) :
    context.Acyclic root := by
  intro node hnode hcircle
  have hlower : ∀ other, Relation.TransGen context.Renders node other →
      other ∈ root.walk ∧ rank other < rank node := by
    intro other hother
    induction hother with
    | single hshows =>
        have hmem := hnode.mem_walk within hindex
        exact ⟨mem_walk_of_shows within hmem hshows, h node hmem _ hshows.mem_shownNodes⟩
    | tail _ hshows ih =>
        exact ⟨mem_walk_of_shows within ih.1 hshows,
          Nat.lt_trans (h _ ih.1 _ hshows.mem_shownNodes) ih.2⟩
  exact Nat.lt_irrefl _ (hlower node hcircle).2

end Context

section

open Node (document paragraph ofValue ofKind link footnoteReference footnoteDefinition)

/-- A radio link, an image with a caption, and two footnotes that refer to each other. -/
def Node.crossing : Node :=
  document
    [(paragraph [link .radio "word" none, link .image "x.png" none,
        footnoteReference "first"]).withCaption "seen",
      paragraph [ofKind .radioTarget [ofValue "word"]],
      footnoteDefinition "first" [paragraph [footnoteReference "second"]],
      footnoteDefinition "second" [paragraph [footnoteReference "first"]]]

theorem renderDocument_terminates_crossing :
    let context := Context.ofTree Node.crossing.prepare {} []
    context.Acyclic Node.crossing.prepare ∧
      Node.crossing.prepare.footnotes = [.labelled "second", .labelled "first"] ∧
      ∃ output final, (context.renderDocument Node.crossing.prepare).run {} = some (output, final) ∧
        final.size ≤ 2 := by
  intro context
  have hfootnotes : Node.crossing.prepare.footnotes = [.labelled "second", .labelled "first"] := by
    decide +kernel
  have hacyclic : context.Acyclic Node.crossing.prepare := by
    -- Nodes show later ones, but for the image and the caption with number two.
    refine Context.acyclic_of_rank (Context.ofTree_within _ _ _) rfl
      (fun node => if node.id = 2 then 0 else 15 - node.id) ?_
    decide +kernel
  obtain ⟨_, _, _, _, final, output, _, _, hsize, houtput⟩ :=
    Context.renderDocument_terminates Node.crossing {} [] hacyclic
  rw [hfootnotes] at hsize
  exact ⟨hacyclic, hfootnotes, output, final, houtput, hsize⟩

end

end OutlineWiki
