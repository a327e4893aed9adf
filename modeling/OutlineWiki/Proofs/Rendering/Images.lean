import OutlineWiki.Proofs.Reference.Images
import OutlineWiki.Proofs.Rendering.Exports

/-!
Images of one tree have the same export.

Two images of a tree may have their nodes numbered and labelled in different ways, and have
different nodes without markup put in between. The images of each node correspond to each
other: either both are faithful, or there is enough depth left for what is put in below them.
-/

namespace OutlineWiki

/-- Lists that come from related lists by putting in what may be skipped are aligned. -/
theorem Aligned.of_interspersed {skip extra other : Node → Prop} {R : Node → Node → Prop}
    {list more nodes others : List Node} (h : List.Forall₂ R list more)
    (hn : Interspersed extra list nodes) (ho : Interspersed other more others)
    (hextra : ∀ node, extra node → skip node) (hother : ∀ node, other node → skip node) :
    Aligned skip R nodes others := by
  induction hn generalizing more others with
  | nil =>
      cases h
      generalize hnil : ([] : List Node) = empty at ho
      induction ho with
      | nil => exact .nil
      | keep node _ _ => cases hnil
      | insert hnode _ ih => exact .second (hother _ hnode) (ih hnil)
  | insert hnode _ ih => exact .first (hextra _ hnode) (ih h ho)
  | keep node hn ih =>
      obtain ⟨twin, more, hnode, hrest, rfl⟩ := List.forall₂_cons_left_iff.mp h
      generalize hcons : twin :: more = twins at ho
      induction ho with
      | nil => cases hcons
      | keep seen ho _ =>
          cases hcons
          exact .both hnode (ih hrest ho)
      | insert hseen _ ihs => exact .second (hother _ hseen) (ihs hcons)

namespace Index

theorem lookups_root (root : Node) :
    let index := ofTree root.prepare
    index.parent? root.prepare = none ∧ index.position? root.prepare = some 0 ∧
      index.previous? root.prepare = none ∧ index.parentBlock? root.prepare = none := by
  have hleads : (Place.ofRoot root.prepare).Leads (Place.ofRoot root.prepare) := .refl
  exact lookups_of_leads hleads

end Index

open Markup

namespace Node

variable {f : String → String} {image : Node → Node} {node : Node}

theorem Copied.isSimple (h : Copied f image node) :
    (image node).kind.isSimple = node.kind.isSimple := by
  rw [h.kind]
  cases node.kind <;> rfl

theorem Copied.isFootnoteReference (h : Copied f image node) :
    (image node).kind.isFootnoteReference = node.kind.isFootnoteReference := by
  rw [h.kind]
  cases node.kind <;> rfl

theorem Copied.footnote? (h : Copied f image node) :
    (image node).footnote? = node.footnote?.map fun footnote =>
      match footnote with
      | .labelled label => .labelled (f label)
      | .anonymous _ => .anonymous (image node).id := by
  rw [Node.footnote?, Node.footnote?, h.kind]
  cases node.kind with
  | footnoteReference label => cases label <;> rfl
  | _ => rfl

theorem label?_of_labelled {label : String} (h : node.footnote? = some (.labelled label)) :
    node.label? = some label := by
  rw [label?, kind_of_labelled h]

end Node

namespace Image

variable {f : String → String} {image : Node → Node} {extra : Node → Prop}
  {source : Node} {pieces : List Node} {root : Node} (h : Image f image extra source pieces root)
include h

/-- The nodes of the pieces are simple. -/
theorem mem_source {node : Node} (hn : node ∈ source.prepare.walkWith pieces)
    (hk : (image node).kind.isSimple = false) : node ∈ source.prepare.walk := by
  rw [(h.grown_of_mem hn).copied.isSimple] at hk
  obtain ⟨tree, ht, hin⟩ := Node.mem_walkWith_iff.mp hn
  obtain rfl | ht := List.mem_cons.mp ht
  · exact hin
  · rw [(h.piece tree ht).2.1 node hin] at hk
    cases hk

theorem parent?_eq {node : Node} (hn : node ∈ source.prepare.walk) :
    (Index.ofTree root.prepare).parent? (image node) =
      ((Index.ofTree source.prepare).parent? node).map image := by
  obtain rfl | hne := eq_or_ne node source.prepare
  · rw [h.root_eq, (Index.lookups_root root).1, (Index.lookups_root source).1]
    rfl
  · obtain ⟨owner, howner, before, after, hlist, hparent, _⟩ := Index.exists_owner hn hne
    rw [hparent, h.parent?_image (Node.mem_walkWith howner)
      (Node.mem_members_iff.mpr ⟨_, hlist, by simp⟩)]
    rfl

theorem parentBlock?_eq {node : Node} (hn : node ∈ source.prepare.walk) :
    (Index.ofTree root.prepare).parentBlock? (image node) =
      ((Index.ofTree source.prepare).parentBlock? node).map image := by
  obtain ⟨place, hleads, rfl⟩ := Place.exists_of_mem_walk hn
  -- The blocks above a node are found on the way down to it.
  induction hleads with
  | refl =>
      rw [Place.ofRoot, h.root_eq, (Index.lookups_root root).2.2.2,
        (Index.lookups_root source).2.2.2]
      rfl
  | @step upper before after node hupper mem ih =>
      have howner := hupper.node_mem
      have hm : node ∈ upper.node.members := Node.mem_members_iff.mpr ⟨_, mem, by simp⟩
      change (Index.ofTree root.prepare).parentBlock? (image node) =
        ((Index.ofTree source.prepare).parentBlock? node).map image
      rw [h.parentBlock?_image (Node.mem_walkWith howner) hm,
        (Index.lookups_of_mem_lists howner mem).2.2.2, ih howner]
      cases upper.node.kind.isBlock <;> rfl

theorem listTypeAround_eq {node : Node} (hn : node ∈ source.prepare.walk) :
    listTypeAround (Index.ofTree root.prepare) (image node) =
      listTypeAround (Index.ofTree source.prepare) node := by
  rw [listTypeAround, listTypeAround, h.parent?_eq hn]
  cases howner : (Index.ofTree source.prepare).parent? node with
  | none => rfl
  | some owner =>
      rw [Option.map_some]
      dsimp only
      rw [(h.copied (Index.parent?_mem howner)).kind]
      cases owner.kind <;> rfl

/-- Where a node stands in a line, it stands at the same place in an image of the line. -/
theorem position?_eq {node : Node} (hn : node ∈ source.prepare.walk)
    (hk : node.kind.isBlock = false) :
    (Index.ofTree root.prepare).position? (image node) =
      (Index.ofTree source.prepare).position? node := by
  obtain rfl | hne := eq_or_ne node source.prepare
  · rw [h.root_eq, (Index.lookups_root root).2.1, (Index.lookups_root source).2.1]
  · obtain ⟨owner, howner, before, after, hlist, _, hposition, _⟩ := Index.exists_owner hn hne
    rw [hposition, (h.position?_image (Node.mem_walkWith howner) hlist hk).1]

theorem isMarkingCell_eq (options : Options) (externalIds : List (String × String)) {cell : Node}
    (hc : cell ∈ source.prepare.walk) (hk : cell.kind.isBlock = false) :
    isMarkingCell (Context.ofTree root.prepare options externalIds) (image cell) =
      isMarkingCell (Context.ofTree source.prepare options externalIds) cell := by
  have htable : ((Index.ofTree root.prepare).parent? (image cell)).bind
        (Index.ofTree root.prepare).parent? =
      (((Index.ofTree source.prepare).parent? cell).bind
        (Index.ofTree source.prepare).parent?).map image := by
    rw [h.parent?_eq hc]
    cases hrow : (Index.ofTree source.prepare).parent? cell with
    | none => rfl
    | some row => exact h.parent?_eq (Index.parent?_mem hrow)
  simp only [isMarkingCell, Context.ofTree, Survey.host, h.position?_eq hc hk, htable]
  cases hrow : ((Index.ofTree source.prepare).parent? cell).bind
      (Index.ofTree source.prepare).parent? with
  | none => rfl
  | some table =>
      obtain ⟨row, _, hparent⟩ := Option.bind_eq_some_iff.mp hrow
      simp only [Option.map_some, h.hasMarkingColumn_image (Index.parent?_mem hparent)]

theorem crossReference_eq (options : Options) (externalIds : List (String × String)) {link : Node}
    (hl : link ∈ source.prepare.walk) :
    crossReference (Context.ofTree root.prepare options externalIds) (image link) =
      crossReference (Context.ofTree source.prepare options externalIds) link := by
  funext description
  simp only [crossReference, Context.ofTree, Survey.host, Survey.crossReference, (h.copied hl).kind]
  cases link.kind with
  | link type path =>
      simp only [Kind.map, Kind.bare, Kind.relabel]
      generalize (if type.tag = "custom-id" then (fun info => info.customId)
        else fun info : HeadlineInfo => info.id) = identifier
      rw [h.headlineWith?_image options externalIds]
      cases hfind : (Survey.ofTree source.prepare options externalIds).headlineWith? identifier
          path with
      | none =>
          simp only [Option.map_none, Survey.ofTree]
          cases externalIds.lookup path <;> rfl
      | some target =>
          simp only [Option.map_some]
          rw [h.ordinal_image options externalIds (List.mem_of_find?_eq_some hfind)]
          rfl
  | _ => rfl

theorem fuzzyLink_eq (options : Options) (externalIds : List (String × String)) {link : Node}
    (hl : link ∈ source.prepare.walk) :
    fuzzyLink (Context.ofTree root.prepare options externalIds) (image link) =
      fuzzyLink (Context.ofTree source.prepare options externalIds) link := by
  have hordinal : ((Survey.ofTree root.prepare options externalIds).fuzzyTarget (image link)).bind
        (Survey.ofTree root.prepare options externalIds).ordinal =
      ((Survey.ofTree source.prepare options externalIds).fuzzyTarget link).bind
        (Survey.ofTree source.prepare options externalIds).ordinal := by
    rw [h.fuzzyTarget_image options externalIds (h.copied hl)]
    cases htarget : (Survey.ofTree source.prepare options externalIds).fuzzyTarget link with
    | none => rfl
    | some target => exact h.ordinal_image options externalIds (Survey.fuzzyTarget_mem htarget)
  funext description
  simp only [fuzzyLink, Context.ofTree, Survey.host, hordinal]

end Image

namespace Image

variable {f g : String → String} {image other : Node → Node} {extra more : Node → Prop}
  {source : Node} {pieces : List Node} {root tree : Node}

/-- The images of a node in two images of a tree. -/
def Relates (_ : Image f image extra source pieces root) (_ : Image g other more source pieces tree)
    (depth : Nat) (node twin : Node) : Prop :=
  ∃ origin ∈ source.prepare.walkWith pieces, node = image origin ∧ twin = other origin ∧
    (origin.Faithful f image ∧ origin.Faithful g other ∨ origin.walk.length < depth)

variable (h : Image f image extra source pieces root) (ho : Image g other more source pieces tree)

section Parts

variable {h ho} {origin : Node}

theorem steady (hn : origin ∈ source.prepare.walkWith pieces) (hf : origin.Faithful f image)
    (hg : origin.Faithful g other) : Steady (h.Relates ho) (image origin) (other origin) :=
  fun _ => ⟨origin, hn, rfl, rfl, .inl ⟨hf, hg⟩⟩

theorem steady_map {nodes : List Node}
    (hn : ∀ node ∈ nodes, node ∈ source.prepare.walkWith pieces ∧ node.Faithful f image ∧
      node.Faithful g other) :
    List.Forall₂ (Steady (h.Relates ho)) (nodes.map image) (nodes.map other) := by
  rw [List.forall₂_map_left_iff, List.forall₂_map_right_iff, List.forall₂_same]
  intro node hin
  obtain ⟨hmem, hf, hg⟩ := hn node hin
  exact steady hmem hf hg

/-- The captions, titles and tags of the images are related at every depth. -/
theorem steady_held (hn : origin ∈ source.prepare.walkWith pieces) {nodes : List Node}
    (hl : ∀ node ∈ nodes, node ∈ origin.caption.getD [] ++ origin.kind.lists.flatten) :
    List.Forall₂ (Steady (h.Relates ho)) (nodes.map image) (nodes.map other) :=
  steady_map fun node hin => ⟨mem_of_mem_members hn (by
    rw [Node.members_eq]
    exact List.mem_append_left _ (hl node hin)),
    (h.grown_of_mem hn).held_faithful (hl node hin),
    (ho.grown_of_mem hn).held_faithful (hl node hin)⟩

theorem steady_children (hn : origin ∈ source.prepare.walkWith pieces)
    (hf : origin.Faithful f image) (hg : origin.Faithful g other) :
    List.Forall₂ (Steady (h.Relates ho)) (image origin).children (other origin).children := by
  rw [hf.children, hg.children]
  exact steady_map fun node hin =>
    have hm := Node.mem_members_of_children hin
    ⟨mem_of_mem_members hn hm, hf.of_mem_members hm, hg.of_mem_members hm⟩

theorem kind_like (hn : origin ∈ source.prepare.walkWith pieces)
    {same : HeadlineInfo → HeadlineInfo → Prop} (hsame : ∀ info, same info info) :
    (image origin).kind.Like same (Steady (h.Relates ho)) (other origin).kind := by
  rw [(h.grown_of_mem hn).copied.kind, (ho.grown_of_mem hn).copied.kind]
  have hheld : ∀ list ∈ origin.kind.lists,
      List.Forall₂ (Steady (h.Relates ho)) (list.map image) (list.map other) := fun list hl =>
    steady_held hn fun node hin => List.mem_append_right _ (List.mem_flatten.mpr ⟨list, hl, hin⟩)
  cases hk : origin.kind with
  | headline info title =>
      exact .headline (hsame info) (hheld title (by rw [hk]; exact List.mem_cons_self))
  | listItem checkbox tag =>
      cases tag with
      | none => exact .listItem .none
      | some tag => exact .listItem (.some (hheld tag (by rw [hk]; exact List.mem_cons_self)))
  | footnoteReference label => exact .footnoteReference
  | footnoteDefinition label => exact .footnoteDefinition
  | _ => exact .plain rfl

theorem children_aligned {depth : Nat} {node twin : Node}
    (hr : h.Relates ho (depth + 1) node twin) :
    Aligned (node.MaySkip depth) (h.Relates ho depth) node.children twin.children := by
  obtain ⟨origin, hn, rfl, rfl, ⟨hf, hg⟩ | hdepth⟩ := hr
  · exact .of_forall₂ ((steady_children hn hf hg).imp fun _ _ hs => hs depth)
  have hgrown := h.grown_of_mem hn
  have hmore := ho.grown_of_mem hn
  cases hframe : origin.kind.isFrame with
  | false =>
      exact .of_forall₂ ((steady_children hn (hgrown.faithful_of_not_frame hframe)
        (hmore.faithful_of_not_frame hframe)).imp fun _ _ hs => hs depth)
  | true =>
      have hpos : 0 < origin.walk.length := List.length_pos_of_mem origin.mem_walk_self
      have hskip : ∀ node : Node, node.kind.isSilent = true →
          (image origin).MaySkip depth node := fun node hs =>
        ⟨by rw [hgrown.copied.isFrame, hframe], by omega, hs⟩
      refine .of_interspersed ?_ hgrown.interspersed hmore.interspersed
        (fun node hx => hskip node (h.extra node hx).1)
        fun node hx => hskip node (ho.extra node hx).1
      rw [List.forall₂_map_left_iff, List.forall₂_map_right_iff, List.forall₂_same]
      intro child hin
      have hm := Node.mem_members_of_children hin
      exact ⟨child, mem_of_mem_members hn hm, rfl, rfl,
        .inr (Nat.lt_of_lt_of_le (Node.length_walk_lt hm) (Nat.le_of_lt_succ hdepth))⟩

theorem steady_caption (hn : origin ∈ source.prepare.walkWith pieces) :
    Option.Rel (List.Forall₂ (Steady (h.Relates ho)))
      (image origin).shownCaption? (other origin).shownCaption? := by
  rw [(h.grown_of_mem hn).copied.shownCaption?, (ho.grown_of_mem hn).copied.shownCaption?]
  cases hc : origin.shownCaption? with
  | none => exact .none
  | some caption =>
      have hcaption := (Option.filter_eq_some_iff.mp hc).1
      exact .some (steady_held hn fun node hin => List.mem_append_left _ (by
        rw [hcaption]
        exact hin))

end Parts

include h in
/-- Nodes share a footnote in an image when they share one in the tree. -/
theorem footnote?_eq_iff {node reference : Node} (hn : node ∈ source.prepare.walkWith pieces)
    (hr : reference ∈ source.prepare.walkWith pieces) :
    (image node).footnote? = (image reference).footnote? ↔
      node.footnote? = reference.footnote? := by
  rw [(h.grown_of_mem hn).copied.footnote?, (h.grown_of_mem hr).copied.footnote?]
  cases hf : node.footnote? with
  | none => cases reference.footnote? <;> simp
  | some footnote =>
      cases ht : reference.footnote? with
      | none => simp
      | some twin =>
          simp only [Option.map_some, Option.some.injEq]
          cases footnote with
          | labelled label =>
              cases twin with
              | anonymous id => simp
              | labelled another =>
                  have hinj := h.label node hn label (Node.label?_of_labelled hf) reference hr
                    another (Node.label?_of_labelled ht)
                  simpa using ⟨hinj, congrArg f⟩
          | anonymous id =>
              cases twin with
              | labelled label => simp
              | anonymous another =>
                  obtain rfl := Node.id_of_anonymous hf
                  obtain rfl := Node.id_of_anonymous ht
                  simpa using h.id_eq_iff hn hr

include h ho in
/-- Two references that follow each other do so in all images. -/
theorem follows_eq {origin : Node} (hn : origin ∈ source.prepare.walkWith pieces)
    (hk : origin.kind.isFootnoteReference = true) :
    (((Index.ofTree root.prepare).previous? (image origin)).any
        fun before => before.kind.isFootnoteReference) =
      ((Index.ofTree tree.prepare).previous? (other origin)).any
        fun before => before.kind.isFootnoteReference := by
  have hinline : origin.kind.isBlock = false ∧ origin.kind.isSilent = false := by
    cases hkind : origin.kind with
    | footnoteReference label => exact ⟨rfl, rfl⟩
    | _ =>
        rw [hkind] at hk
        cases hk
  obtain rfl | ⟨owner, howner, hm⟩ := h.exists_owner hn hinline.2
  · rw [h.root_eq, ho.root_eq, (Index.lookups_root root).2.2.1, (Index.lookups_root tree).2.2.1]
  · obtain ⟨list, hl, hin⟩ := Node.mem_members_iff.mp hm
    obtain ⟨before, after, rfl⟩ := List.append_of_mem hin
    rw [(h.position?_image howner hl hinline.1).2, (ho.position?_image howner hl hinline.1).2]
    cases hlast : before.getLast? with
    | none => rfl
    | some last =>
        have hmember : last ∈ owner.members := Node.mem_members_iff.mpr
          ⟨_, hl, List.mem_append_left _ (List.mem_of_getLast? hlast)⟩
        have hmem := mem_of_mem_members howner hmember
        rw [Option.map_some, Option.map_some, Option.any_some, Option.any_some,
          (h.grown_of_mem hmem).copied.isFootnoteReference,
          (ho.grown_of_mem hmem).copied.isFootnoteReference]

section Lookups

variable {h ho} {origin : Node}

theorem steady_radioTarget (options : Options) (externalIds : List (String × String))
    (hn : origin ∈ source.prepare.walk) :
    Option.Rel (fun target goal =>
        List.Forall₂ (Steady (h.Relates ho)) target.children goal.children)
      ((Survey.ofTree root.prepare options externalIds).radioTarget (image origin))
      ((Survey.ofTree tree.prepare options externalIds).radioTarget (other origin)) := by
  rw [h.radioTarget_image options externalIds (h.copied hn),
    ho.radioTarget_image options externalIds (ho.copied hn)]
  cases ht : (Survey.ofTree source.prepare options externalIds).radioTarget origin with
  | none => exact .none
  | some target =>
      obtain ⟨hmem, hradio⟩ := Survey.isRadioTarget_of_radioTarget ht
      exact .some (steady_children (Node.mem_walkWith hmem)
        ((h.grown.of_mem_walk hmem).faithful_of_isRadioTarget hradio)
        ((ho.grown.of_mem_walk hmem).faithful_of_isRadioTarget hradio))

theorem steady_blockCaption (hn : origin ∈ source.prepare.walk) :
    Option.Rel (List.Forall₂ (Steady (h.Relates ho)))
      (((Index.ofTree root.prepare).parentBlock? (image origin)).bind Node.shownCaption?)
      (((Index.ofTree tree.prepare).parentBlock? (other origin)).bind Node.shownCaption?) := by
  rw [h.parentBlock?_eq hn, ho.parentBlock?_eq hn]
  cases hb : (Index.ofTree source.prepare).parentBlock? origin with
  | none => exact .none
  | some block => exact steady_caption (Node.mem_walkWith (Index.parentBlock?_mem hb))

theorem steady_footnoteText (hn : origin ∈ source.prepare.walkWith pieces)
    (hf : origin.Faithful f image) (hg : origin.Faithful g other) :
    Option.Rel (List.Forall₂ (Steady (h.Relates ho)))
      ((Index.ofTree root.prepare).footnoteText? (image origin))
      ((Index.ofTree tree.prepare).footnoteText? (other origin)) := by
  have hchildren : List.Forall₂ (Steady (h.Relates ho)) (image origin).children
      (other origin).children := steady_children hn hf hg
  rw [Index.footnoteText?, Index.footnoteText?, hf.copied.kind, hg.copied.kind]
  cases hk : origin.kind with
  | footnoteReference label =>
      cases label with
      | some label =>
          have hlabel : origin.label? = some label := by rw [Node.label?, hk]
          simp only [Kind.map, Kind.bare, Kind.relabel, Option.map_some,
            h.definition origin hn label hlabel, ho.definition origin hn label hlabel]
          cases hd : (source.prepare.walkWith pieces).find? (·.definesFootnote label) with
          | none => exact .none
          | some definition =>
              have hmem := List.mem_of_find?_eq_some hd
              have hframe := Node.isFrame_of_definesFootnote (List.find?_some hd)
              exact .some (steady_children hmem
                ((h.grown_of_mem hmem).faithful_of_not_frame hframe)
                ((ho.grown_of_mem hmem).faithful_of_not_frame hframe))
      | none =>
          simp only [Kind.map, Kind.bare, Kind.relabel, Option.map_none]
          rw [hf.children, hg.children] at hchildren ⊢
          cases hempty : origin.children with
          | nil => exact .none
          | cons first rest =>
              rw [hempty] at hchildren
              exact .some hchildren
  | _ => exact .none

end Lookups

/-- Two images of a tree correspond, each node by its two images. -/
theorem corresponds (options : Options) (externalIds : List (String × String)) :
    Corresponds (Context.ofTree root.prepare options externalIds)
      (Context.ofTree tree.prepare options externalIds) (h.Relates ho) where
  options := rfl
  localize := rfl
  codeReference := (h.codeReference_image options externalIds).trans
    (ho.codeReference_image options externalIds).symm
  showsImage := rfl
  kind := by
    rintro _ _ _ ⟨origin, hn, rfl, rfl, _⟩
    exact kind_like hn options.layOutAlike_self
  children := children_aligned
  postBlank := by
    rintro _ _ _ ⟨origin, hn, rfl, rfl, _⟩
    rw [(h.grown_of_mem hn).copied.postBlank, (ho.grown_of_mem hn).copied.postBlank]
  item := by
    rintro _ _ _ _ _ ⟨origin, hn, rfl, rfl, _⟩ hk
    have hmem := h.mem_source hn (by rw [hk]; rfl)
    exact (h.listTypeAround_eq hmem).trans (ho.listTypeAround_eq hmem).symm
  cell := by
    rintro _ _ _ ⟨origin, hn, rfl, rfl, _⟩ hk
    have hmem := h.mem_source hn (by rw [hk]; rfl)
    have hinline : origin.kind.isBlock = false := by
      rw [← (h.grown_of_mem hn).copied.isBlock, hk]
      rfl
    exact (h.isMarkingCell_eq options externalIds hmem hinline).trans
      (ho.isMarkingCell_eq options externalIds hmem hinline).symm
  drawing := by
    rintro _ _ _ _ ⟨origin, hn, rfl, rfl, _⟩ _
    exact (h.grown_of_mem hn).copied.preformattedDrawing.trans
      (ho.grown_of_mem hn).copied.preformattedDrawing.symm
  caption := by
    rintro _ _ _ _ ⟨origin, hn, rfl, rfl, _⟩ _
    exact steady_caption hn
  cross := by
    rintro _ _ _ _ _ ⟨origin, hn, rfl, rfl, _⟩ hk
    have hmem := h.mem_source hn (by rw [hk]; rfl)
    exact (h.crossReference_eq options externalIds hmem).trans
      (ho.crossReference_eq options externalIds hmem).symm
  fuzzy := by
    rintro _ _ _ _ _ ⟨origin, hn, rfl, rfl, _⟩ hk
    have hmem := h.mem_source hn (by rw [hk]; rfl)
    exact (h.fuzzyLink_eq options externalIds hmem).trans
      (ho.fuzzyLink_eq options externalIds hmem).symm
  radio := by
    rintro _ _ _ _ _ ⟨origin, hn, rfl, rfl, _⟩ hk
    exact steady_radioTarget options externalIds (h.mem_source hn (by rw [hk]; rfl))
  image := by
    rintro _ _ _ _ _ ⟨origin, hn, rfl, rfl, _⟩ hk
    exact steady_blockCaption (h.mem_source hn (by rw [hk]; rfl))
  reference := by
    rintro _ _ _ _ ⟨origin, hn, rfl, rfl, _⟩ hk
    have hframe : origin.kind.isFrame = false := by
      rw [← (h.grown_of_mem hn).copied.isFrame, hk]
      rfl
    exact steady hn ((h.grown_of_mem hn).faithful_of_not_frame hframe)
      ((ho.grown_of_mem hn).faithful_of_not_frame hframe)
  follows := by
    rintro _ _ _ _ ⟨origin, hn, rfl, rfl, _⟩ hk
    refine h.follows_eq ho hn ?_
    rw [← (h.grown_of_mem hn).copied.isFootnoteReference, hk]
    rfl
  footnote := by
    intro _ _ _ _ hnode hreference
    obtain ⟨origin, hn, rfl, rfl, _⟩ := hnode 0
    obtain ⟨other, hr, rfl, rfl, _⟩ := hreference 0
    exact (h.footnote?_eq_iff hn hr).trans (ho.footnote?_eq_iff hn hr).symm
  text := by
    intro _ _ hnode
    obtain ⟨origin, hn, rfl, rfl, ⟨hf, hg⟩ | hdepth⟩ := hnode 0
    · exact steady_footnoteText hn hf hg
    · exact absurd hdepth (Nat.not_lt_zero _)

include h ho in
/-- Two images of a tree have the same export within the same bounds, if these leave enough
depth for what was put in. -/
theorem exportWithin_eq (options : Options) (externalIds : List (String × String)) {depth : Nat}
    (hdepth : source.prepare.Faithful f image ∧ source.prepare.Faithful g other ∨
      source.prepare.walk.length < depth) (turns : Nat) :
    ((Context.ofTree root.prepare options externalIds).exportWithin depth turns
        root.prepare).run' {} =
      ((Context.ofTree tree.prepare options externalIds).exportWithin depth turns
        tree.prepare).run' {} :=
  Context.exportWithin_agrees (h.corresponds ho options externalIds)
    ⟨source.prepare, Node.mem_walkWith (Node.mem_walk_self _), h.root_eq.symm, ho.root_eq.symm,
      hdepth⟩ turns

end Image

/-- The markup of a tree is its export within the bounds that its size gives. -/
theorem Node.wikiMarkup?_eq (root : Node) (options : Options) :
    root.wikiMarkup? options =
      ((Context.ofTree root.prepare options []).exportWithin root.prepare.walk.length
        (root.prepare.walk.length + 1) root.prepare).run' {} := by
  have hdepth : (Context.ofTree root.prepare options []).depth = root.prepare.walk.length :=
    Index.size_ofTree root.prepare
  rw [wikiMarkup?, Context.start, Context.renderDocument_eq, hdepth]

end OutlineWiki
