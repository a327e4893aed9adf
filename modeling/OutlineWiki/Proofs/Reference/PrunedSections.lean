import Mathlib.Order.MinMax
import OutlineWiki.Outline.Build
import OutlineWiki.Proofs.Outline.Pruning
import OutlineWiki.Proofs.Reference.Sections
import OutlineWiki.Proofs.Rendering.Correspondence

/-!
Section numbers with and without what is dropped.

Dropped nodes have no markup, but a survey also goes through what they own, so headlines in
them use up section numbers. Such a headline changes the numbers of all sections after it that
are as deep, up to a kept section that is less deep, which starts to count anew.
-/

namespace OutlineWiki

section Numbers

/-- Each marked depth is forgotten in the end, as there is a lesser one that comes later without
a mark, or is the given one. -/
def ForgetsMarked (entries : List (Nat × Bool)) (depth : Nat) : Prop :=
  ∀ before hidden after, entries = before ++ (hidden, true) :: after →
    depth < hidden ∨ ∃ kept, (kept, false) ∈ after ∧ kept < hidden

theorem forgetsMarked_nil (depth : Nat) : ForgetsMarked [] depth := by
  intro before hidden after h
  cases before <;> cases h

/-- An entry of a list is the last one or stands in the list before it. -/
theorem concat_eq_append_cons {α : Type} {entries before after : List α} {last entry : α}
    (h : entries ++ [last] = before ++ entry :: after) :
    (last = entry ∧ after = []) ∨
      ∃ rest, after = rest ++ [last] ∧ entries = before ++ entry :: rest := by
  obtain rfl | ⟨rest, other, rfl⟩ := after.eq_nil_or_concat'
  · exact .inl ⟨List.singleton_inj.mp (List.append_inj' h rfl).2, rfl⟩
  · rw [← List.cons_append, ← List.append_assoc] at h
    obtain ⟨hentries, hlast⟩ := List.append_inj' h rfl
    exact .inr ⟨rest, by rw [hlast], hentries⟩

section Concat

variable {entries : List (Nat × Bool)} {depth last : Nat}

theorem forgetsMarked_concat_true :
    ForgetsMarked (entries ++ [(last, true)]) depth ↔ depth < last ∧ ForgetsMarked entries depth := by
  constructor
  · intro h
    refine ⟨?_, fun before hidden after heq => ?_⟩
    · obtain hlt | ⟨kept, hkept, _⟩ := h entries last [] rfl
      · exact hlt
      · cases hkept
    · obtain hlt | ⟨kept, hkept, hlt⟩ :=
        h before hidden (after ++ [(last, true)]) (by rw [heq]; simp)
      · exact .inl hlt
      · exact .inr ⟨kept, by simpa using hkept, hlt⟩
  · rintro ⟨hlt, h⟩ before hidden after heq
    obtain ⟨hlast, -⟩ | ⟨rest, rfl, hentries⟩ := concat_eq_append_cons heq
    · cases hlast
      exact .inl hlt
    · obtain hlt | ⟨kept, hkept, hlt⟩ := h before hidden rest hentries
      · exact .inl hlt
      · exact .inr ⟨kept, List.mem_append_left _ hkept, hlt⟩

theorem forgetsMarked_concat_false :
    ForgetsMarked (entries ++ [(last, false)]) depth ↔ ForgetsMarked entries (min depth last) := by
  constructor
  · intro h before hidden after heq
    rw [min_lt_iff]
    obtain hlt | ⟨kept, hkept, hlt⟩ :=
      h before hidden (after ++ [(last, false)]) (by rw [heq]; simp)
    · exact .inl (.inl hlt)
    · obtain hkept | hkept := List.mem_append.mp hkept
      · exact .inr ⟨kept, hkept, hlt⟩
      · cases List.mem_singleton.mp hkept
        exact .inl (.inr hlt)
  · intro h before hidden after heq
    obtain ⟨hlast, -⟩ | ⟨rest, rfl, hentries⟩ := concat_eq_append_cons heq
    · cases hlast
    · obtain hlt | ⟨kept, hkept, hlt⟩ := h before hidden rest hentries
      · obtain hlt | hlt := min_lt_iff.mp hlt
        · exact .inl hlt
        · exact .inr ⟨last, by simp, hlt⟩
      · exact .inr ⟨kept, List.mem_append_left _ hkept, hlt⟩

end Concat

/-- The numbers that follow two numbers are the same at the depths of a set, and in order at all
other depths. -/
def Follows (number later : List Nat) (same : Nat → Prop) : Prop :=
  ∀ depth, 1 ≤ depth →
    (same depth → nextSectionNumber number depth = nextSectionNumber later depth) ∧
    (¬ same depth → Precedes (nextSectionNumber number depth) (nextSectionNumber later depth))

namespace Follows

variable {number later : List Nat} {same : Nat → Prop} (h : Follows number later same)
include h

theorem nextSectionNumber_eq_iff {depth : Nat} (hd : 1 ≤ depth) :
    nextSectionNumber number depth = nextSectionNumber later depth ↔ same depth := by
  obtain ⟨hsame, hnot⟩ := h depth hd
  exact ⟨fun heq => by_contra fun hn => (hnot hn).ne heq, hsame⟩

/-- A section at the end of both takes over its number for all sections below it. -/
theorem kept {last : Nat} (hl : 1 ≤ last) :
    Follows (nextSectionNumber number last) (nextSectionNumber later last)
      fun depth => same (min depth last) := by
  intro depth hd
  obtain hlt | hle := Nat.lt_or_ge depth last
  · simp only [Nat.min_eq_left hlt.le, nextSectionNumber_nextSectionNumber _ hd hlt]
    exact h depth hd
  · simp only [Nat.min_eq_right hle]
    obtain ⟨hsame, hnot⟩ := h last hl
    have hlength : ∀ previous, (nextSectionNumber previous last).length = last :=
      fun previous => length_nextSectionNumber previous hl
    refine ⟨fun hs => congrArg (nextSectionNumber · depth) (hsame hs), fun hn => ?_⟩
    exact (hnot hn).nextSectionNumber (by rw [hlength, hlength]) (by rw [hlength]; exact hle)

/-- A section at the end of the second one alone moves on the numbers that are as deep. -/
theorem hidden {last : Nat} (hl : 1 ≤ last) :
    Follows number (nextSectionNumber later last) fun depth => depth < last ∧ same depth := by
  intro depth hd
  obtain ⟨hsame, hnot⟩ := h depth hd
  obtain hlt | hle := Nat.lt_or_ge depth last
  · rw [nextSectionNumber_nextSectionNumber _ hd hlt]
    exact ⟨fun hs => hsame hs.2, fun hn => hnot fun hs => hn ⟨hlt, hs⟩⟩
  · have hmoves := precedes_nextSectionNumber_nextSectionNumber later hl hle
    refine ⟨fun hs => absurd hs.1 (Nat.not_lt_of_ge hle), fun _ => ?_⟩
    by_cases hs : same depth
    · rwa [hsame hs]
    · exact (hnot hs).trans hmoves

end Follows

/-- The last number of all sections follows that of the sections without a mark. -/
theorem follows_lastSectionNumber {entries : List (Nat × Bool)}
    (h : ∀ entry ∈ entries, 1 ≤ entry.1) :
    Follows (lastSectionNumber (unmarked entries)) (lastSectionNumber (entries.map (·.1)))
      (ForgetsMarked entries) := by
  induction entries using List.reverseRecOn with
  | nil => exact fun depth _ => ⟨fun _ => rfl, fun hnot => absurd (forgetsMarked_nil depth) hnot⟩
  | append_singleton entries entry ih =>
      obtain ⟨last, isMarked⟩ := entry
      have hentries := ih fun entry he => h entry (List.mem_append_left _ he)
      have hlast : 1 ≤ last := h (last, isMarked) (by simp)
      rw [unmarked_append, List.map_append]
      change Follows _ (lastSectionNumber (entries.map (·.1) ++ [last])) _
      rw [lastSectionNumber_concat]
      cases isMarked with
      | true =>
          rw [show unmarked [(last, true)] = [] from rfl, List.append_nil,
            show ForgetsMarked (entries ++ [(last, true)]) =
              fun depth => depth < last ∧ ForgetsMarked entries depth from
                funext fun _ => propext forgetsMarked_concat_true]
          exact hentries.hidden hlast
      | false =>
          rw [show unmarked [(last, false)] = [last] from rfl, lastSectionNumber_concat,
            show ForgetsMarked (entries ++ [(last, false)]) =
              fun depth => ForgetsMarked entries (min depth last) from
                funext fun _ => propext forgetsMarked_concat_false]
          exact hentries.kept hlast

end Numbers

/-- The depth of a section with a number. -/
def Kind.sectionDepth? {α : Type} : Kind α → Option Nat
  | .headline info _ => if info.footnoteSection then none else some info.depth
  | _ => none

theorem Kind.sectionDepth?_bare {α β : Type} (kind : Kind α) :
    (kind.bare : Kind β).sectionDepth? = kind.sectionDepth? := by
  cases kind <;> rfl

namespace Node

theorem map_depth_numberedHeadline? (node : Node) :
    node.numberedHeadline?.map HeadlineInfo.depth = node.surface.kind.sectionDepth? := by
  rw [surface, Kind.sectionDepth?_bare, numberedHeadline?]
  cases node.kind with
  | headline info title => cases h : info.footnoteSection <;> simp [Kind.sectionDepth?, h]
  | _ => rfl

theorem headlineDepths_congr {nodes others : List Node}
    (h : nodes.map (·.surface.kind) = others.map (·.surface.kind)) :
    headlineDepths nodes = headlineDepths others := by
  have hdepths : ∀ nodes : List Node,
      headlineDepths nodes = (nodes.map (·.surface.kind)).filterMap Kind.sectionDepth? := by
    intro nodes
    rw [List.filterMap_map, headlineDepths]
    exact List.filterMap_congr fun node _ => node.map_depth_numberedHeadline?
  rw [hdepths, hdepths, h]

/-- The depths of the numbered headlines among nodes, with the marks of the nodes. -/
def markedDepths (entries : List (Node × Bool)) : List (Nat × Bool) :=
  entries.filterMap fun entry =>
    entry.1.numberedHeadline?.map fun info => (info.depth, entry.2)

theorem map_fst_markedDepths (entries : List (Node × Bool)) :
    (markedDepths entries).map (·.1) = headlineDepths (entries.map (·.1)) := by
  rw [markedDepths, List.map_filterMap, headlineDepths, List.filterMap_map]
  refine List.filterMap_congr fun entry _ => ?_
  rw [Option.map_map]
  rfl

theorem unmarked_markedDepths (entries : List (Node × Bool)) :
    unmarked (markedDepths entries) = headlineDepths (unmarked entries) := by
  induction entries with
  | nil => rfl
  | cons entry entries ih =>
      obtain ⟨node, isMarked⟩ := entry
      rw [markedDepths, List.filterMap_cons]
      cases hinfo : node.numberedHeadline? <;> cases isMarked
      · rw [unmarked_cons_false, headlineDepths, List.filterMap_cons, hinfo]
        exact ih
      · exact ih
      · rw [unmarked_cons_false, headlineDepths, List.filterMap_cons, hinfo]
        exact congrArg (List.cons _) ih
      · exact ih

/-- A dropped node has no markup, whatever it owns. -/
theorem renderNode_dropped (context : Context) (depth : Nat) {node : Node}
    (h : node.kind.isDropped = true) : Markup.renderNode context (depth + 1) node = pure [] := by
  obtain ⟨kind, children, postBlank, name, caption, id⟩ := node
  cases kind with
  | comment => exact Markup.renderNode_silent context depth rfl
  | unknown => exact Markup.renderNode_silent context depth rfl
  | headline info title =>
      have h : info.footnoteSection = true := h
      simp [Markup.renderNode, Markup.renderWith, Markup.descends, Markup.format,
        Markup.headline, h, Markup.withSpace]
  | _ => cases h

end Node

namespace Survey

variable (root : Node) (options : Options) (externalIds : List (String × String))

/-- The nodes at one place of walks with the same kinds have numbers after the same depths. -/
theorem exists_ordinal {before after : List Node} {node : Node} {info : HeadlineInfo}
    (hwalk : root.walk.map (·.surface.kind) = (before ++ node :: after).map (·.surface.kind))
    (h : node.numberedHeadline? = some info) :
    ∃ other, root.prepare.walk[before.length]? = some other ∧
      other.surface.kind = node.surface.kind ∧
      (ofTree root.prepare options externalIds).ordinal other =
        some (.dotted (nextSectionNumber (lastSectionNumber (Node.headlineDepths before))
          info.depth)) := by
  have hprepare : root.prepare.walk.map (·.surface.kind) =
      (before ++ node :: after).map (·.surface.kind) := by
    have hsurface := congrArg (List.map Surface.kind) root.walk_surface_prepare
    rw [List.map_map, List.map_map] at hsurface
    exact hsurface.trans hwalk
  rw [List.map_append, List.map_cons] at hprepare
  obtain ⟨earlier, rest, hsplit, hearlier, hrest⟩ := List.map_eq_append_iff.mp hprepare
  obtain ⟨other, later, rfl, hother, _⟩ := List.map_eq_cons_iff.mp hrest
  have hlength : earlier.length = before.length := by
    have hlengths := congrArg List.length hearlier
    rwa [List.length_map, List.length_map] at hlengths
  have hdepth : other.numberedHeadline?.map HeadlineInfo.depth = some info.depth := by
    rw [Node.map_depth_numberedHeadline?, hother, ← Node.map_depth_numberedHeadline?, h]
    rfl
  obtain ⟨otherInfo, hinfo, heq⟩ := Option.map_eq_some_iff.mp hdepth
  refine ⟨other, ?_, hother, ?_⟩
  · rw [hsplit, ← hlength, List.getElem?_append_right (Nat.le_refl _), Nat.sub_self]
    rfl
  · rw [ordinal, lookup_sections hsplit hinfo, lastSectionNumber_concat, heq,
      Node.headlineDepths_congr hearlier]

/-- Dropped nodes have no markup, but the headlines in them do count. A section that is kept has
the number that it has in the pruned tree exactly when all counted headlines before it that are
dropped with another node are forgotten: the section is less deep, or a kept one in between. -/
theorem sections_pruned :
    let host := (ofTree root.prepare options externalIds).host
    let prunedHost := (ofTree root.pruned.prepare options externalIds).host
    (∀ node : Node, node.kind.isDropped = true → ∀ context depth,
      Markup.renderNode context (depth + 1) node = pure []) ∧
    ∀ before node after info, root.marked false = before ++ (node, false) :: after →
      node.numberedHeadline? = some info →
        ∃ shown other, root.prepare.walk[before.length]? = some shown ∧
          root.pruned.prepare.walk[(unmarked before).length]? = some other ∧
          shown.surface.kind = node.surface.kind ∧ other.surface.kind = node.surface.kind ∧
          (prunedHost.ordinal other = host.ordinal shown ↔
            ForgetsMarked (Node.markedDepths before) info.depth) := by
  intro host prunedHost
  refine ⟨fun node hn context depth => Node.renderNode_dropped context depth hn, ?_⟩
  intro before node after info hmarked h
  obtain ⟨shown, hshown, hkind, hnumber⟩ :=
    exists_ordinal root options externalIds (congrArg _ (Node.walk_of_marked hmarked)) h
  obtain ⟨other, hother, hotherKind, hotherNumber⟩ :=
    exists_ordinal root.pruned options externalIds (Node.walk_pruned_of_marked hmarked) h
  refine ⟨shown, other, by rwa [List.length_map] at hshown, hother, hkind, hotherKind, ?_⟩
  have hdepths : ∀ entry ∈ Node.markedDepths before, 1 ≤ entry.1 := fun entry he =>
    Node.one_le_of_mem_headlineDepths
      (Node.map_fst_markedDepths before ▸ List.mem_map_of_mem he)
  have hfollows := follows_lastSectionNumber hdepths
  rw [Node.map_fst_markedDepths, Node.unmarked_markedDepths] at hfollows
  change (ofTree root.pruned.prepare options externalIds).ordinal other =
    (ofTree root.prepare options externalIds).ordinal shown ↔ _
  rw [hnumber, hotherNumber, ← hfollows.nextSectionNumber_eq_iff info.one_le_depth]
  simp

-- A headline in a section of footnotes takes a number away from the next section.
example :
    let footnotes : HeadlineInfo := { level := 1, footnoteSection := true }
    let shown : HeadlineInfo := { level := 1, customId := some "s" }
    let root := Node.document
      [Node.ofKind (.headline footnotes []) [Node.headline 1 "Hidden" []],
        Node.ofKind (.headline shown [Node.ofValue "Shown"])
          [Node.paragraph [Node.link .customId "s" none]]]
    root.wikiMarkup? {} = some "= Shown =\n(See section 2)\n\n".toList ∧
      root.pruned.wikiMarkup? {} = some "= Shown =\n(See section 1)\n\n".toList := by
  decide +kernel

end Survey

end OutlineWiki
