import OutlineWiki.Export
import OutlineWiki.Proofs.Outline.Images

/-!
What a survey answers about the image of a tree.

A survey finds the first node of the walk with some property, or counts the nodes with some
property. Copies have the properties of their originals and come in the same order, and what
was put in between has none of the properties. So answers about an image are the images of
the answers about the original, and numbers are the same.
-/

namespace OutlineWiki

namespace Kind

variable {α : Type}

theorem name_relabel (f : String → String) (kind : Kind α) :
    (kind.relabel f).name = kind.name := by
  cases kind <;> rfl

end Kind

namespace Interspersed

variable {extra : Node → Prop} {list more : List Node}

/-- Only nodes that are put in between without being a headline leave the sections as they are. -/
theorem sectionNumbers_eq (h : Interspersed extra list more)
    (hextra : ∀ node, extra node → node.numberedHeadline? = none) (previous : List Nat) :
    sectionNumbers previous more = sectionNumbers previous list := by
  induction h generalizing previous with
  | nil => rfl
  | keep node _ ih =>
      rw [sectionNumbers, sectionNumbers]
      split
      · exact ih previous
      · exact congrArg (List.cons _) (ih _)
  | insert hnode _ ih =>
      rw [sectionNumbers, hextra _ hnode]
      exact ih previous

theorem elementNumbers_eq (h : Interspersed extra list more)
    (hextra : ∀ node, extra node → node.caption = none) (seen : List String) :
    elementNumbers seen more = elementNumbers seen list := by
  induction h generalizing seen with
  | nil => rfl
  | keep node _ ih =>
      rw [elementNumbers, elementNumbers]
      split
      · rw [ih]
      · exact ih seen
  | insert hnode _ ih =>
      rw [elementNumbers, hextra _ hnode]
      exact ih seen

end Interspersed

namespace Node

section Copies

variable {f : String → String} {image : Node → Node} {node : Node}

theorem Copied.numberedHeadline? (h : Copied f image node) :
    (image node).numberedHeadline? = node.numberedHeadline? := by
  rw [Node.numberedHeadline?, Node.numberedHeadline?, h.kind]
  cases node.kind <;> rfl

theorem Copied.isRadioTarget (h : Copied f image node) :
    (image node).isRadioTarget = node.isRadioTarget := by
  rw [Node.isRadioTarget, Node.isRadioTarget, h.kind]
  cases node.kind <;> rfl

theorem Copied.linkPath? (h : Copied f image node) : (image node).linkPath? = node.linkPath? := by
  rw [Node.linkPath?, Node.linkPath?, h.kind]
  cases node.kind <;> rfl

theorem Copied.isStandardRow (h : Copied f image node) :
    (image node).isStandardRow = node.isStandardRow := by
  rw [Node.isStandardRow, Node.isStandardRow, h.kind]
  cases node.kind <;> rfl

theorem Copied.preformattedDrawing (h : Copied f image node) :
    (image node).preformattedDrawing = node.preformattedDrawing := by
  rw [Node.preformattedDrawing, Node.preformattedDrawing, h.kind]
  cases node.kind <;> rfl

theorem Copied.shownCaption? (h : Copied f image node) :
    (image node).shownCaption? = node.shownCaption?.map (·.map image) := by
  rw [Node.shownCaption?, Node.shownCaption?, h.caption]
  cases node.caption with
  | none => rfl
  | some caption => cases caption <;> rfl

theorem Copied.labelledLines (h : Copied f image node) :
    (image node).labelledLines = node.labelledLines := by
  have hcode : (image node).labelledCode? = node.labelledCode? := by
    rw [labelledCode?, labelledCode?, h.kind]
    cases node.kind <;> rfl
  rw [Node.labelledLines, Node.labelledLines, hcode]

theorem Copied.kindName (h : Copied f image node) :
    (image node).kind.name = node.kind.name := by
  rw [h.kind, Kind.name_relabel, Kind.name_map]

theorem Copied.isCaptioned (h : Copied f image node) :
    (image node).caption.isSome = node.caption.isSome := by
  rw [h.caption, Option.isSome_map]

theorem plainTexts_map {nodes : List Node} (h : ∀ node ∈ nodes, Faithful f image node) :
    plainTexts (nodes.map image) = plainTexts nodes := by
  rw [plainTexts, plainTexts, List.flatMap_map]
  exact List.flatMap_congr fun node hn => (h node hn).plainText

theorem Grown.titleText {extra : Node → Prop} (h : Grown f image extra node) :
    (image node).titleText = node.titleText := by
  rw [Node.titleText, Node.titleText, h.copied.kind, Kind.title_relabel, Kind.title_map,
    plainTexts_map]
  intro inner hi
  refine h.held_faithful (List.mem_append_right _ ?_)
  generalize node.kind = kind at hi
  cases kind with
  | headline info title => simpa [Kind.lists, Kind.title] using hi
  | _ => cases hi

theorem Grown.faithful_of_isRadioTarget {extra : Node → Prop} (h : Grown f image extra node)
    (ht : node.isRadioTarget = true) : Faithful f image node := by
  refine h.faithful_of_not_frame ?_
  rw [Node.isRadioTarget] at ht
  split at ht
  · next hk => rw [hk]; rfl
  · cases ht

theorem Grown.faithful_of_row {extra : Node → Prop} (h : Grown f image extra node)
    (hr : node.isStandardRow = true) : Faithful f image node := by
  refine h.faithful_of_not_frame ?_
  rw [Node.isStandardRow] at hr
  split at hr
  · next hk => rw [hk]; rfl
  · cases hr

/-- The numbers of sections belong to the copies of the same nodes. -/
theorem lookup_sectionNumbers {nodes : List Node} (hc : ∀ inner ∈ nodes, Copied f image inner)
    (hid : ∀ inner ∈ nodes, (image inner).id = (image node).id ↔ inner.id = node.id)
    (previous : List Nat) :
    (sectionNumbers previous (nodes.map image)).lookup (image node).id =
      (sectionNumbers previous nodes).lookup node.id := by
  induction nodes generalizing previous with
  | nil => rfl
  | cons first nodes ih =>
      obtain ⟨hfirst, hrest⟩ := List.forall_mem_cons.mp hc
      obtain ⟨hids, hmore⟩ := List.forall_mem_cons.mp hid
      rw [List.map_cons, sectionNumbers, sectionNumbers, hfirst.numberedHeadline?]
      split
      · exact ih hrest hmore previous
      · have hbeq := Bool.eq_iff_iff.mpr
          ((beq_iff_eq.trans (eq_comm.trans (hids.trans eq_comm))).trans beq_iff_eq.symm)
        rw [List.lookup_cons, List.lookup_cons, hbeq, ih hrest hmore]

theorem lookup_elementNumbers {nodes : List Node} (hc : ∀ inner ∈ nodes, Copied f image inner)
    (hid : ∀ inner ∈ nodes, (image inner).id = (image node).id ↔ inner.id = node.id)
    (seen : List String) :
    (elementNumbers seen (nodes.map image)).lookup (image node).id =
      (elementNumbers seen nodes).lookup node.id := by
  induction nodes generalizing seen with
  | nil => rfl
  | cons first nodes ih =>
      obtain ⟨hfirst, hrest⟩ := List.forall_mem_cons.mp hc
      obtain ⟨hids, hmore⟩ := List.forall_mem_cons.mp hid
      rw [List.map_cons, elementNumbers, elementNumbers, hfirst.isCaptioned, hfirst.kindName]
      split
      · have hbeq := Bool.eq_iff_iff.mpr
          ((beq_iff_eq.trans (eq_comm.trans (hids.trans eq_comm))).trans beq_iff_eq.symm)
        rw [List.lookup_cons, List.lookup_cons, hbeq, ih hrest hmore]
      · exact ih hrest hmore seen

end Copies

section Unnoticed

variable {node : Node} (h : node.Unnoticed)
include h

theorem Unnoticed.numberedHeadline? : node.numberedHeadline? = none := by
  have hkind := h.kind
  rw [Node.numberedHeadline?]
  cases hk : node.kind with
  | headline info title =>
      rw [hk] at hkind
      cases hkind
  | _ => rfl

theorem Unnoticed.isRadioTarget : node.isRadioTarget = false := by
  have hkind := h.kind
  rw [Node.isRadioTarget]
  cases hk : node.kind with
  | radioTarget =>
      rw [hk] at hkind
      cases hkind
  | _ => rfl

theorem Unnoticed.labelledLines : node.labelledLines = [] := by
  have hkind := h.kind
  rw [Node.labelledLines, Node.labelledCode?]
  cases hk : node.kind with
  | sourceBlock language value numberLines =>
      rw [hk] at hkind
      cases hkind
  | exampleBlock value =>
      rw [hk] at hkind
      cases hkind
  | _ => rfl

end Unnoticed

end Node

namespace Survey

theorem headlineTitled?_eq (root : Node) (options : Options)
    (externalIds : List (String × String)) (title : List Char) :
    (ofTree root options externalIds).headlineTitled? title =
      root.walk.find? fun node =>
        node.numberedHeadline?.isSome && node.titleText == Text.normalizeBlanks title := by
  simp only [headlineTitled?, ofTree, List.find?_map, List.find?_filter, Option.map_map,
    Bool.decide_and, Bool.decide_eq_true]
  exact Option.map_id'

theorem radioTarget_eq (root : Node) (options : Options) (externalIds : List (String × String))
    (link : Node) :
    (ofTree root options externalIds).radioTarget link =
      link.linkPath?.bind fun path => root.walk.find? fun node =>
        node.isRadioTarget && Node.radioForm node.plainText == Node.radioForm path.toList := by
  rw [radioTarget]
  cases link.linkPath? with
  | none => rfl
  | some path =>
      simp only [ofTree, List.find?_map, List.find?_filter, Option.map_map, Bool.decide_and,
        Bool.decide_eq_true]
      exact Option.map_id'

theorem isRadioTarget_of_radioTarget {root link target : Node} {options : Options}
    {externalIds : List (String × String)}
    (h : (ofTree root options externalIds).radioTarget link = some target) :
    target ∈ root.walk ∧ target.isRadioTarget = true := by
  rw [radioTarget_eq] at h
  obtain ⟨path, _, hfind⟩ := Option.bind_eq_some_iff.mp h
  have htarget := List.find?_some hfind
  exact ⟨List.mem_of_find?_eq_some hfind, (Bool.and_eq_true_iff.mp htarget).1⟩

theorem fuzzyTarget_mem {root link target : Node} {options : Options}
    {externalIds : List (String × String)}
    (h : (ofTree root options externalIds).fuzzyTarget link = some target) :
    target ∈ root.walk := by
  have htitled : ∀ {title : List Char},
      (ofTree root options externalIds).headlineTitled? title = some target →
        target ∈ root.walk := by
    intro title ht
    rw [headlineTitled?_eq] at ht
    exact List.mem_of_find?_eq_some ht
  rw [fuzzyTarget] at h
  split at h
  · cases h
  · split at h
    · exact htitled h
    · split at h
      · next hfind =>
          cases h
          exact List.mem_of_find?_eq_some hfind
      · exact htitled h

end Survey

namespace Image

variable {f : String → String} {image : Node → Node} {extra : Node → Prop}
  {source : Node} {pieces : List Node} {root : Node} (h : Image f image extra source pieces root)
  (options : Options) (externalIds : List (String × String))
include h

theorem walk : Interspersed (Node.Within extra) (source.prepare.walk.map image)
    root.prepare.walk := by
  rw [← h.root_eq]
  exact h.grown.walk

theorem unnoticed {inner : Node} (hi : Node.Within extra inner) : inner.Unnoticed := by
  obtain ⟨node, hnode, hin⟩ := hi
  exact (h.extra node hnode).2 inner hin

theorem copied {node : Node} (hn : node ∈ source.prepare.walk) : node.Copied f image :=
  (h.grown.of_mem_walk hn).copied

/-- The nodes of an image with some property are the images of those with the property. -/
theorem filter_walk {p : Node → Bool} (hextra : ∀ node : Node, node.Unnoticed → p node = false)
    (hp : ∀ node ∈ source.prepare.walk, p (image node) = p node) :
    root.prepare.walk.filter p = (source.prepare.walk.filter p).map image := by
  rw [h.walk.filter_eq fun node hn => hextra node (h.unnoticed hn), List.filter_map]
  exact congrArg (List.map image) (List.filter_congr hp)

theorem find?_walk {p : Node → Bool} (hextra : ∀ node : Node, node.Unnoticed → p node = false)
    (hp : ∀ node ∈ source.prepare.walk, p (image node) = p node) :
    root.prepare.walk.find? p = (source.prepare.walk.find? p).map image := by
  rw [← List.head?_filter, h.filter_walk hextra hp, List.head?_map, List.head?_filter]

theorem id_eq_iff {node other : Node} (hn : node ∈ source.prepare.walkWith pieces)
    (ho : other ∈ source.prepare.walkWith pieces) :
    (image node).id = (image other).id ↔ node.id = other.id := by
  constructor
  · exact (h.number node hn other ho).2
  · intro hid
    rw [(h.number node hn other ho).1 hid]

theorem ordinal_image {node : Node} (hn : node ∈ source.prepare.walk) :
    (Survey.ofTree root.prepare options externalIds).ordinal (image node) =
      (Survey.ofTree source.prepare options externalIds).ordinal node := by
  have hsections : (sectionNumbers [] root.prepare.walk).lookup (image node).id =
      (sectionNumbers [] source.prepare.walk).lookup node.id := by
    rw [h.walk.sectionNumbers_eq fun inner hi => (h.unnoticed hi).numberedHeadline?]
    exact Node.lookup_sectionNumbers (fun inner hi => h.copied hi)
      (fun inner hi => h.id_eq_iff (Node.mem_walkWith hi) (Node.mem_walkWith hn)) []
  have helements : (elementNumbers [] root.prepare.walk).lookup (image node).id =
      (elementNumbers [] source.prepare.walk).lookup node.id := by
    rw [h.walk.elementNumbers_eq fun inner hi => (h.unnoticed hi).caption]
    exact Node.lookup_elementNumbers (fun inner hi => h.copied hi)
      (fun inner hi => h.id_eq_iff (Node.mem_walkWith hi) (Node.mem_walkWith hn)) []
  simp only [Survey.ordinal, Survey.ofTree, hsections, helements]

theorem headlineWith?_image (identifier : HeadlineInfo → Option String) (path : String) :
    (Survey.ofTree root.prepare options externalIds).headlineWith? identifier path =
      ((Survey.ofTree source.prepare options externalIds).headlineWith? identifier path).map
        image := by
  refine h.find?_walk (fun node hn => ?_) fun node hn => ?_
  · rw [hn.numberedHeadline?]
    rfl
  · rw [(h.copied hn).numberedHeadline?]

theorem headlineTitled?_image (title : List Char) :
    (Survey.ofTree root.prepare options externalIds).headlineTitled? title =
      ((Survey.ofTree source.prepare options externalIds).headlineTitled? title).map image := by
  rw [Survey.headlineTitled?_eq, Survey.headlineTitled?_eq]
  refine h.find?_walk (fun node hn => ?_) fun node hn => ?_
  · rw [hn.numberedHeadline?]
    rfl
  · rw [(h.copied hn).numberedHeadline?, (h.grown.of_mem_walk hn).titleText]

theorem radioTarget_image {link : Node} (hl : link.Copied f image) :
    (Survey.ofTree root.prepare options externalIds).radioTarget (image link) =
      ((Survey.ofTree source.prepare options externalIds).radioTarget link).map image := by
  rw [Survey.radioTarget_eq, Survey.radioTarget_eq, hl.linkPath?, Option.map_bind]
  refine Option.bind_congr fun path _ => h.find?_walk (fun node hn => ?_) fun node hn => ?_
  · rw [hn.isRadioTarget]
    rfl
  · rw [(h.copied hn).isRadioTarget]
    cases htarget : node.isRadioTarget with
    | false => rfl
    | true => rw [((h.grown.of_mem_walk hn).faithful_of_isRadioTarget htarget).plainText]

theorem fuzzyTarget_image {link : Node} (hl : link.Copied f image) :
    (Survey.ofTree root.prepare options externalIds).fuzzyTarget (image link) =
      ((Survey.ofTree source.prepare options externalIds).fuzzyTarget link).map image := by
  rw [Survey.fuzzyTarget, Survey.fuzzyTarget, hl.linkPath?]
  cases link.linkPath? with
  | none => rfl
  | some path =>
      have hname : (Survey.ofTree root.prepare options externalIds).nodes.find?
          (fun node => node.name == some path) =
          ((Survey.ofTree source.prepare options externalIds).nodes.find?
            fun node => node.name == some path).map image := by
        refine h.find?_walk (fun node hn => ?_) fun node hn => ?_
        · rw [hn.name]
          rfl
        · rw [(h.copied hn).name]
      dsimp only
      split
      · exact h.headlineTitled?_image options externalIds _
      · rw [hname, h.headlineTitled?_image options externalIds]
        generalize (Survey.ofTree source.prepare options externalIds).nodes.find?
          (fun node => node.name == some path) = found
        cases found <;> rfl

theorem codeReference_image :
    (Survey.ofTree root.prepare options externalIds).codeReference =
      (Survey.ofTree source.prepare options externalIds).codeReference := by
  have hlines : root.prepare.walk.flatMap Node.labelledLines =
      source.prepare.walk.flatMap Node.labelledLines := by
    rw [h.walk.flatMap_eq fun node hn => (h.unnoticed hn).labelledLines, List.flatMap_map]
    exact List.flatMap_congr fun node hn => (h.copied hn).labelledLines
  funext label description
  simp only [Survey.codeReference, Survey.ofTree, hlines]

/-- Nothing that is put in between is a row. -/
theorem hasMarkingColumn_image {table : Node} (ht : table ∈ source.prepare.walk) :
    (image table).hasMarkingColumn = table.hasMarkingColumn := by
  have hgrown := h.grown.of_mem_walk ht
  have hrow : ∀ row ∈ table.children, (image row).isStandardRow = row.isStandardRow :=
    fun row hr => (hgrown.of_mem_members (Node.mem_members_of_children hr)).copied.isStandardRow
  have hrows : (image table).standardRows = table.standardRows.map image := by
    rw [Node.standardRows, Node.standardRows, hgrown.interspersed.filter_eq, List.filter_map]
    · exact congrArg (List.map image) (List.filter_congr hrow)
    · intro node hn
      have hsilent := (h.extra node hn).1
      rw [Node.isStandardRow]
      cases hk : node.kind with
      | tableRow type =>
          rw [hk] at hsilent
          cases hsilent
      | _ => rfl
  have hcolumn : (image table).firstColumn = table.firstColumn := by
    rw [Node.firstColumn, Node.firstColumn, hrows, List.filterMap_map]
    refine List.filterMap_congr fun row hr => ?_
    obtain ⟨hr, hstandard⟩ := List.mem_filter.mp hr
    have hfaithful := (hgrown.of_mem_members (Node.mem_members_of_children hr)).faithful_of_row
      hstandard
    rw [Function.comp_apply, hfaithful.children]
    cases hcells : row.children with
    | nil => rfl
    | cons cell cells =>
        have hcell := (hfaithful.of_mem_members (Node.mem_members_of_children
          (hcells ▸ List.mem_cons_self))).plainText
        simp only [List.map_cons, List.head?_cons, Option.map_some, hcell]
  rw [Node.hasMarkingColumn, Node.hasMarkingColumn, hcolumn]

end Image
end OutlineWiki
