import Mathlib.Data.List.Pairwise
import OutlineWiki.Export
import OutlineWiki.Proofs.Outline.Numbering
import OutlineWiki.Proofs.Reference.SectionPaths

/-!
Section numbers in a document.

A survey numbers the headlines of a document one after another. So the numbers grow along the
document, no two headlines share one, and a link to a headline shows a number that belongs to
this headline alone.
-/

namespace OutlineWiki

theorem HeadlineInfo.one_le_depth (info : HeadlineInfo) : 1 ≤ info.depth :=
  Nat.le_max_right _ _

namespace Node

/-- Whether the node is a headline that gets a section number. -/
def isNumbered (node : Node) : Bool :=
  node.numberedHeadline?.isSome

/-- The depths of the numbered headlines among nodes. -/
def headlineDepths (nodes : List Node) : List Nat :=
  nodes.filterMap fun node => node.numberedHeadline?.map HeadlineInfo.depth

theorem one_le_of_mem_headlineDepths {nodes : List Node} {depth : Nat}
    (h : depth ∈ headlineDepths nodes) : 1 ≤ depth := by
  obtain ⟨node, _, hnode⟩ := List.mem_filterMap.mp h
  obtain ⟨info, _, rfl⟩ := Option.map_eq_some_iff.mp hnode
  exact info.one_le_depth

end Node

section Numbers

open Node (isNumbered headlineDepths)

theorem ids_sectionNumbers (previous : List Nat) (nodes : List Node) :
    (sectionNumbers previous nodes).map (·.1) = (nodes.filter isNumbered).map (·.id) := by
  induction nodes generalizing previous with
  | nil => rfl
  | cons node nodes ih =>
      rw [sectionNumbers, List.filter_cons, isNumbered]
      cases node.numberedHeadline? with
      | none => exact ih previous
      | some info => exact congrArg (List.cons node.id) (ih _)

/-- All numbers come after the one that was given before, and one after the other. -/
theorem precedes_sectionNumbers (previous : List Nat) (nodes : List Node) :
    (∀ entry ∈ sectionNumbers previous nodes, Precedes previous entry.2) ∧
      (sectionNumbers previous nodes).Pairwise fun entry later => Precedes entry.2 later.2 := by
  induction nodes generalizing previous with
  | nil => exact ⟨fun _ hmem => absurd hmem List.not_mem_nil, List.Pairwise.nil⟩
  | cons node nodes ih =>
      rw [sectionNumbers]
      cases node.numberedHeadline? with
      | none => exact ih previous
      | some info =>
          have hfirst := precedes_nextSectionNumber previous info.one_le_depth
          obtain ⟨hlater, hpairs⟩ := ih (nextSectionNumber previous info.depth)
          refine ⟨fun entry hentry => ?_, .cons hlater hpairs⟩
          obtain rfl | hrest := List.mem_cons.mp hentry
          · exact hfirst
          · exact hfirst.trans (hlater entry hrest)

/-- A headline is numbered after the depths of the headlines before it. -/
theorem lookup_sectionNumbers_split {before after : List Node} {node : Node}
    {info : HeadlineInfo} (h : node.numberedHeadline? = some info)
    (hid : ∀ other ∈ before, other.id ≠ node.id) (previous : List Nat) :
    (sectionNumbers previous (before ++ node :: after)).lookup node.id =
      some (nextSectionNumber ((headlineDepths before).foldl nextSectionNumber previous)
        info.depth) := by
  induction before generalizing previous with
  | nil =>
      rw [List.nil_append, sectionNumbers, h]
      exact List.lookup_cons_self
  | cons other before ih =>
      obtain ⟨hother, hbefore⟩ := List.forall_mem_cons.mp hid
      rw [List.cons_append, sectionNumbers, headlineDepths, List.filterMap_cons]
      cases other.numberedHeadline? with
      | none => exact ih hbefore previous
      | some other' =>
          have hbeq : (node.id == other.id) = false := beq_eq_false_iff_ne.mpr hother.symm
          simp only [List.lookup_cons, hbeq, Option.map_some, List.foldl_cons]
          exact ih hbefore _

theorem lookup_of_mem_of_nodup {entries : List (Nat × List Nat)} {entry : Nat × List Nat}
    (hn : (entries.map (·.1)).Nodup) (h : entry ∈ entries) :
    entries.lookup entry.1 = some entry.2 := by
  induction entries with
  | nil => cases h
  | cons first entries ih =>
      rw [List.map_cons, List.nodup_cons] at hn
      obtain rfl | hrest := List.mem_cons.mp h
      · exact List.lookup_cons_self
      · have hne : (entry.1 == first.1) = false := beq_eq_false_iff_ne.mpr fun heq =>
          hn.1 (heq ▸ List.mem_map_of_mem hrest)
        rw [List.lookup_cons, hne]
        exact ih hn.2 hrest

end Numbers

namespace Survey

/-- The section number of a headline. -/
def sectionNumber (survey : Survey) (node : Node) : List Nat :=
  (survey.sections.lookup node.id).getD []

variable {root node : Node} {options : Options} {externalIds : List (String × String)}

theorem lookup_sections {before after : List Node} {info : HeadlineInfo}
    (hwalk : root.prepare.walk = before ++ node :: after)
    (h : node.numberedHeadline? = some info) :
    (ofTree root.prepare options externalIds).sections.lookup node.id =
      some (lastSectionNumber (Node.headlineDepths before ++ [info.depth])) := by
  have hid : ∀ other ∈ before, other.id ≠ node.id := by
    have hincrease := root.ids_increase
    rw [hwalk] at hincrease
    exact fun other ho =>
      Nat.ne_of_lt ((List.pairwise_append.mp hincrease).2.2 other ho node List.mem_cons_self)
  have hsections : (ofTree root.prepare options externalIds).sections =
      sectionNumbers [] (before ++ node :: after) := hwalk ▸ rfl
  rw [hsections, lookup_sectionNumbers_split h hid, lastSectionNumber_concat, lastSectionNumber]

theorem lookup_sections_of_isNumbered (hn : node ∈ root.prepare.walk)
    (h : node.isNumbered = true) :
    (ofTree root.prepare options externalIds).sections.lookup node.id =
      some ((ofTree root.prepare options externalIds).sectionNumber node) := by
  obtain ⟨before, after, hwalk⟩ := List.append_of_mem hn
  obtain ⟨info, hinfo⟩ := Option.isSome_iff_exists.mp h
  rw [sectionNumber, lookup_sections hwalk hinfo, Option.getD_some]

theorem ordinal_of_isNumbered (hn : node ∈ root.prepare.walk) (h : node.isNumbered = true) :
    (ofTree root.prepare options externalIds).ordinal node =
      some (.dotted ((ofTree root.prepare options externalIds).sectionNumber node)) := by
  rw [ordinal, lookup_sections_of_isNumbered hn h]

/-- Nothing but a numbered headline has a dotted number. -/
theorem isNumbered_of_ordinal {numbers : List Nat} (hn : node ∈ root.prepare.walk)
    (h : (ofTree root.prepare options externalIds).ordinal node = some (.dotted numbers)) :
    node.isNumbered = true := by
  rw [ordinal] at h
  split at h
  · next found hfound =>
      obtain ⟨before, after, hsplit, _⟩ := List.lookup_eq_some_iff.mp hfound
      have hmem : (node.id, found) ∈ sectionNumbers [] root.prepare.walk := by
        change _ ∈ (ofTree root.prepare options externalIds).sections
        exact hsplit ▸ List.mem_append_right before List.mem_cons_self
      have hid : node.id ∈ (root.prepare.walk.filter Node.isNumbered).map (·.id) :=
        ids_sectionNumbers [] root.prepare.walk ▸ List.mem_map_of_mem hmem
      obtain ⟨other, ho, heq⟩ := List.mem_map.mp hid
      obtain ⟨hother, hnumbered⟩ := List.mem_filter.mp ho
      exact Node.eq_of_id_eq hother hn heq ▸ hnumbered
  · obtain ⟨_, _, hsingle⟩ := Option.map_eq_some_iff.mp h
    cases hsingle

/-- The section numbers follow one another in the order of the headlines. -/
theorem pairwise_sectionNumber (root : Node) (options : Options)
    (externalIds : List (String × String)) :
    let survey := ofTree root.prepare options externalIds
    (root.prepare.walk.filter Node.isNumbered).Pairwise fun node later =>
      Precedes (survey.sectionNumber node) (survey.sectionNumber later) := by
  intro survey
  have hkeys := ids_sectionNumbers [] root.prepare.walk
  have hnodup : (survey.sections.map (·.1)).Nodup := by
    change ((sectionNumbers [] root.prepare.walk).map (·.1)).Nodup
    rw [hkeys]
    have hids : (root.prepare.walk.map (·.id)).Nodup := by
      rw [Node.ids_prepare]
      exact List.nodup_range
    exact hids.sublist (List.filter_sublist.map _)
  have hnumbers : survey.sections.map (·.2) =
      (root.prepare.walk.filter Node.isNumbered).map survey.sectionNumber := by
    have hlookup : survey.sections.map (·.2) =
        survey.sections.map fun entry => (survey.sections.lookup entry.1).getD [] :=
      List.map_congr_left fun entry hentry => by
        rw [lookup_of_mem_of_nodup hnodup hentry, Option.getD_some]
    have hids : survey.sections.map (·.1) =
        (root.prepare.walk.filter Node.isNumbered).map (·.id) := hkeys
    have hmap := congrArg (List.map fun id => (survey.sections.lookup id).getD []) hids
    rw [List.map_map, List.map_map] at hmap
    exact hlookup.trans hmap
  have hpairs := List.pairwise_map.mpr (precedes_sectionNumbers [] root.prepare.walk).2
  exact List.pairwise_map.mp (hnumbers ▸ hpairs)

theorem sectionNumber_ne {other : Node} (hn : node ∈ root.prepare.walk.filter Node.isNumbered)
    (ho : other ∈ root.prepare.walk.filter Node.isNumbered) (hne : node ≠ other) :
    (ofTree root.prepare options externalIds).sectionNumber node ≠
      (ofTree root.prepare options externalIds).sectionNumber other := by
  have hsymm : Std.Symm fun node later : Node =>
      (ofTree root.prepare options externalIds).sectionNumber node ≠
        (ofTree root.prepare options externalIds).sectionNumber later :=
    ⟨fun _ _ h => h.symm⟩
  have hpairs := (pairwise_sectionNumber root options externalIds).imp Precedes.ne
  exact hpairs.forall hn ho hne

/-- A link to an identifier leads to a numbered headline, if it stays in the document. -/
theorem mem_of_crossReference {link target : Node}
    (h : (ofTree root options externalIds).crossReference link = some (.internal target)) :
    target ∈ root.walk.filter Node.isNumbered := by
  rw [crossReference] at h
  split at h
  · dsimp only at h
    split at h
    · next hfind =>
        cases h
        rw [headlineWith?] at hfind
        have hpath := List.find?_some hfind
        rw [beq_iff_eq] at hpath
        obtain ⟨info, hinfo, _⟩ := Option.bind_eq_some_iff.mp hpath
        exact List.mem_filter.mpr
          ⟨List.mem_of_find?_eq_some hfind, Option.isSome_iff_exists.mpr ⟨info, hinfo⟩⟩
    · obtain ⟨_, _, hexternal⟩ := Option.map_eq_some_iff.mp h
      cases hexternal
  · cases h

/-- A number has a component for each level of its headline. The last one counts the headlines of
that depth since the last one that is less deep, the headline itself included. -/
theorem sectionNumber_of_split {before after : List Node} {info : HeadlineInfo}
    (hwalk : root.prepare.walk = before ++ node :: after)
    (h : node.numberedHeadline? = some info) :
    let number := (ofTree root.prepare options externalIds).sectionNumber node
    number.length = max info.level.toNat 1 ∧
      number.getLast? = some (sectionsSince info.depth (Node.headlineDepths before) + 1) := by
  intro number
  have hdepth := info.one_le_depth
  have hnumber : number =
      nextSectionNumber (lastSectionNumber (Node.headlineDepths before)) info.depth := by
    rw [← lastSectionNumber_concat]
    exact congrArg (·.getD []) (lookup_sections hwalk h)
  have hdepths : ∀ depth ∈ Node.headlineDepths before, 1 ≤ depth :=
    fun _ hd => Node.one_le_of_mem_headlineDepths hd
  have hcount := getD_lastSectionNumber hdepths (info.depth - 1)
  rw [Nat.sub_add_cancel hdepth] at hcount
  rw [hnumber, length_nextSectionNumber _ hdepth, getLast?_nextSectionNumber, hcount]
  exact ⟨rfl, rfl⟩

/-- The number of a headline is the number of no other node. -/
theorem ordinal_ne {other : Node} (hn : node ∈ root.prepare.walk.filter Node.isNumbered)
    (ho : other ∈ root.prepare.walk) (hne : other ≠ node) :
    (ofTree root.prepare options externalIds).ordinal other ≠
      (ofTree root.prepare options externalIds).ordinal node := by
  obtain ⟨hwalk, hnumbered⟩ := List.mem_filter.mp hn
  rw [ordinal_of_isNumbered hwalk hnumbered]
  intro heq
  have ho' := List.mem_filter.mpr ⟨ho, isNumbered_of_ordinal ho heq⟩
  rw [ordinal_of_isNumbered ho (isNumbered_of_ordinal ho heq)] at heq
  exact sectionNumber_ne ho' hn hne (by injection heq with h; injection h)

/-- A link that leads to a headline shows its section number in brackets, behind its description if
there is one. -/
theorem format_sectionLink {link target : Node} {type : LinkType} {path : String}
    (hlink : link.kind = .link type path) (htype : type = .customId ∨ type = .id)
    (h : (ofTree root.prepare options externalIds).crossReference link = some (.internal target))
    (render : Node → Rendering (List Char)) (contents : List Char) :
    let survey := ofTree root.prepare options externalIds
    Markup.format (Context.ofTree root.prepare options externalIds) render link contents =
      pure ((if Text.trim contents = [] then [] else Text.trim contents ++ [' ']) ++
        '(' :: Text.fill (survey.localize "See section %s").toList
          [(Ordinal.dotted (survey.sectionNumber target)).text] ++ [')']) := by
  intro survey
  obtain ⟨hwalk, hnumbered⟩ := List.mem_filter.mp (mem_of_crossReference h)
  have hshown : ∀ description,
      Markup.crossReference (Context.ofTree root.prepare options externalIds) link description =
        Markup.describedReference description
          (Text.fill (survey.localize "See section %s").toList
            [(Ordinal.dotted (survey.sectionNumber target)).text]) := by
    intro description
    have hhost : (Context.ofTree root.prepare options externalIds).host = survey.host := rfl
    rw [Markup.crossReference, hhost]
    simp only [host, survey, h, ordinal_of_isNumbered hwalk hnumbered]
  have hformat : Markup.format (Context.ofTree root.prepare options externalIds) render link
      contents = pure (Markup.crossReference (Context.ofTree root.prepare options externalIds) link
        (if (Text.trim contents).isEmpty then none else some (Text.trim contents))) := by
    rw [Markup.format, hlink]
    obtain rfl | rfl := htype <;> rfl
  rw [hformat, hshown]
  by_cases hempty : Text.trim contents = []
  · rw [if_pos hempty, if_pos (List.isEmpty_iff.mpr hempty)]
    rfl
  · rw [if_neg hempty, if_neg (mt List.isEmpty_iff.mp hempty)]
    simp [Markup.describedReference]

/-- Section numbers grow along the document, so each of them and its text tells the headline.
A link to a headline always shows the number of that headline, and of nothing else. -/
theorem sections_ordered (root : Node) (options : Options)
    (externalIds : List (String × String)) :
    let survey := ofTree root.prepare options externalIds
    let headlines := root.prepare.walk.filter Node.isNumbered
    let number := survey.sectionNumber
    (∀ before node after info, root.prepare.walk = before ++ node :: after →
      node.numberedHeadline? = some info →
        survey.host.ordinal node = some (.dotted (number node)) ∧
        (number node).length = max info.level.toNat 1 ∧
        (number node).getLast? =
          some (sectionsSince info.depth (Node.headlineDepths before) + 1)) ∧
    headlines.Pairwise (fun node later => Precedes (number node) (number later)) ∧
    (∀ node ∈ headlines, ∀ other ∈ headlines, node ≠ other →
      number node ≠ number other ∧
      (Ordinal.dotted (number node)).text ≠ (Ordinal.dotted (number other)).text) ∧
    ∀ link target, survey.host.crossReference link = some (.internal target) →
      target ∈ headlines ∧
      (∀ other ∈ root.prepare.walk, other ≠ target →
        survey.host.ordinal other ≠ survey.host.ordinal target) ∧
      ∀ type path, link.kind = .link type path → type = .customId ∨ type = .id →
        ∀ render contents,
          Markup.format (Context.ofTree root.prepare options externalIds) render link contents =
            pure ((if Text.trim contents = [] then [] else Text.trim contents ++ [' ']) ++
              '(' :: Text.fill (survey.localize "See section %s").toList
                [(Ordinal.dotted (number target)).text] ++ [')']) := by
  intro survey headlines number
  refine ⟨fun before node after info hwalk hinfo => ⟨?_, sectionNumber_of_split hwalk hinfo⟩,
    pairwise_sectionNumber root options externalIds, fun node hn other ho hne => ⟨?_, ?_⟩,
    fun link target h => ⟨mem_of_crossReference h, ?_, ?_⟩⟩
  · have hn : node ∈ root.prepare.walk := hwalk ▸ List.mem_append_right _ List.mem_cons_self
    exact ordinal_of_isNumbered hn (Option.isSome_iff_exists.mpr ⟨info, hinfo⟩)
  · exact sectionNumber_ne hn ho hne
  · exact fun htext => sectionNumber_ne hn ho hne (Ordinal.text_dotted_injective htext)
  · exact fun other ho hne => ordinal_ne (mem_of_crossReference h) ho hne
  · exact fun type path hlink htype => format_sectionLink hlink htype h

end Survey
end OutlineWiki
