import OutlineWiki.Proofs.Outline.Renaming

/-!
A further node in a tree.

A node may be put in anywhere among the children of a frame that holds blocks, if the frame is
reached through the children of frames alone. The tree with the node, once it is prepared, is
an image of the tree without it: the nodes that come later get other numbers, and the new
node stands in its place with its own numbers.
-/

namespace OutlineWiki

theorem Kind.isFrame_map {α β : Type} (f : α → β) (kind : Kind α) :
    (kind.map f).isFrame = kind.isFrame := by
  cases kind <;> rfl

theorem Kind.isFrame_bare {α β : Type} (kind : Kind α) :
    (kind.bare : Kind β).isFrame = kind.isFrame := by
  cases kind <;> rfl

namespace Node

/-- The second tree is the first one with a new node among the children of a frame. -/
inductive Inserted (new : Node) : Node → Node → Prop where
  | among {owner : Node} {before after : List Node} (kind : owner.kind.isFrame = true)
      (children : owner.children = before ++ after)
      (blocks : ∀ child ∈ owner.children, child.kind.isBlock = true) :
      Inserted new owner { owner with children := before ++ new :: after }
  | inside {owner child grown : Node} {before after : List Node}
      (kind : owner.kind.isFrame = true) (children : owner.children = before ++ child :: after)
      (h : Inserted new child grown) :
      Inserted new owner { owner with children := before ++ grown :: after }

section Spaced

variable {new owner spread : Node} {before after : List Node}
  (kind : owner.kind.isFrame = true) (hkind : spread.kind = owner.kind.map (transform spaced))
  (hchildren : spread.children = owner.children.map (transform spaced))
include kind hkind hchildren

/-- The children of a frame are separated in the same way with a new one among them. -/
theorem Inserted.among_spaced (children : owner.children = before ++ after)
    (blocks : ∀ child ∈ owner.children, child.kind.isBlock = true) :
    Inserted (new.transform spaced) spread
      { spread with children := (before ++ new :: after).map (transform spaced) } := by
  rw [List.map_append, List.map_cons]
  refine .among ?_ ?_ ?_
  · rw [hkind, Kind.isFrame_map, kind]
  · rw [hchildren, children, List.map_append]
  · rw [hchildren]
    intro child hc
    obtain ⟨block, hblock, rfl⟩ := List.mem_map.mp hc
    rw [transform_spaced_eq]
    exact (Kind.isBlock_map _ _).trans (blocks block hblock)

theorem Inserted.inside_spaced {child grown : Node}
    (children : owner.children = before ++ child :: after)
    (h : Inserted (new.transform spaced) (child.transform spaced) (grown.transform spaced)) :
    Inserted (new.transform spaced) spread
      { spread with children := (before ++ grown :: after).map (transform spaced) } := by
  rw [List.map_append, List.map_cons]
  refine .inside ?_ ?_ h
  · rw [hkind, Kind.isFrame_map, kind]
  · rw [hchildren, children, List.map_append, List.map_cons]

end Spaced

section Prepared

variable {new node grown : Node}

theorem Inserted.transform_spaced (h : Inserted new node grown) :
    Inserted (new.transform spaced) (node.transform spaced) (grown.transform spaced) := by
  have hparts : ∀ owner : Node,
      (owner.transform spaced).kind = owner.kind.map (transform spaced) ∧
        (owner.transform spaced).children = owner.children.map (transform spaced) := by
    intro owner
    rw [transform_spaced_eq]
    exact ⟨rfl, rfl⟩
  have hwith : ∀ (owner : Node) (children : List Node),
      ({ owner with children } : Node).transform spaced =
        { owner.transform spaced with children := children.map (transform spaced) } := by
    intro owner children
    rw [transform_spaced_eq, transform_spaced_eq]
    rfl
  induction h with
  | among kind children blocks =>
      rw [hwith]
      exact .among_spaced kind (hparts _).1 (hparts _).2 children blocks
  | inside kind children _ ih =>
      rw [hwith]
      exact .inside_spaced kind (hparts _).1 (hparts _).2 children ih

theorem Inserted.separateBlocks (h : Inserted new node grown) :
    Inserted (new.transform spaced) node.separateBlocks grown.separateBlocks := by
  cases h with
  | among kind children blocks => exact .among_spaced kind rfl rfl children blocks
  | inside kind children h => exact .inside_spaced kind rfl rfl children h.transform_spaced

end Prepared

/-- A piece for a position among the children of a node that is given by its number, and the
numbers that all nodes get. -/
structure Opening where
  owner : Nat
  position : Nat
  piece : Node
  number : Nat → Nat

/-- The tree with other numbers and with the piece in its place. -/
def Opening.fill (opening : Opening) : Node → Node :=
  transform fun node =>
    { node with
      id := opening.number node.id
      children :=
        if node.id = opening.owner then
          node.children.take opening.position ++
            opening.piece :: node.children.drop opening.position
        else
          node.children }

section Bounds

/-- All numbers in the tree are at least the first one and less than the last one. -/
def Between (first last : Nat) (node : Node) : Prop :=
  ∀ inner ∈ node.walk, first ≤ inner.id ∧ inner.id < last

theorem Between.mono {first last lower upper : Nat} {node : Node} (h : Between first last node)
    (hf : lower ≤ first) (hl : last ≤ upper) : Between lower upper node :=
  fun inner hi => ⟨Nat.le_trans hf (h inner hi).1, Nat.lt_of_lt_of_le (h inner hi).2 hl⟩

theorem between_of_consecutive {nodes numbered : List Node} {first next : Nat}
    (h : Consecutive nodes numbered first next) {node : Node} (hn : node ∈ numbered) :
    Between first (first + total nodes) node := by
  intro inner hi
  have hid : inner.id ∈ ids numbered :=
    List.mem_map_of_mem (List.mem_flatMap.mpr ⟨node, hn, hi⟩)
  rw [h.ids_eq] at hid
  exact List.mem_range'_1.mp hid

theorem between_numberFrom (node : Node) (first : Nat) :
    Between first (first + total [node]) (node.numberFrom first).1 :=
  between_of_consecutive (consecutive_numberFrom node first) List.mem_cons_self

theorem between_numberAll {nodes : List Node} {first : Nat} {node : Node}
    (h : node ∈ (Kind.numberAll (nodes.map numberFrom) first).1) :
    Between first (first + total nodes) node :=
  between_of_consecutive (consecutive_numberAll (fun node _ => consecutive_numberFrom node) first) h

theorem between_numberHeld {kind : Kind Node} {first : Nat} {node : Node}
    (h : node ∈ ((kind.map numberFrom).numberHeld first).1.lists.flatten) :
    Between first (first + total kind.lists.flatten) node :=
  between_of_consecutive
    (consecutive_numberHeld (fun _ _ node _ => consecutive_numberFrom node) first) h

/-- What a node owns besides its children has numbers between its own and theirs. -/
theorem between_held {node member : Node} {first : Nat}
    (h : member ∈ (node.numberFrom first).1.caption.getD [] ++
      (node.numberFrom first).1.kind.lists.flatten) :
    Between (first + 1) (node.childStart first) member := by
  rw [numberFrom_caption, numberFrom_kind] at h
  obtain h | h := List.mem_append.mp h
  · cases hc : node.caption with
    | none =>
        rw [hc] at h
        cases h
    | some caption =>
        rw [hc] at h
        refine (between_numberAll h).mono (Nat.le_refl _) ?_
        rw [childStart, hc]
        exact Nat.le_add_right _ _
  · exact (between_numberHeld h).mono (Nat.le_add_right _ _) (Nat.le_refl _)

theorem numberAll_append (nodes more : List Node) (first : Nat) :
    (Kind.numberAll ((nodes ++ more).map numberFrom) first).1 =
      (Kind.numberAll (nodes.map numberFrom) first).1 ++
        (Kind.numberAll (more.map numberFrom) (first + total nodes)).1 := by
  induction nodes generalizing first with
  | nil => rfl
  | cons node nodes ih =>
      have htotal : total (node :: nodes) = total [node] + total nodes := total_append [node] nodes
      simp only [List.cons_append, List.map_cons, Kind.numberAll, snd_numberFrom]
      rw [ih, htotal, Nat.add_assoc]

end Bounds

namespace Opening

theorem fill_eq (opening : Opening) (node : Node) :
    opening.fill node =
      { node.withParts (node.parts.map opening.fill) with
        id := opening.number node.id
        children :=
          if node.id = opening.owner then
            (node.children.map opening.fill).take opening.position ++
              opening.piece :: (node.children.map opening.fill).drop opening.position
          else
            node.children.map opening.fill } :=
  transform_eq _ node

theorem copied_fill (opening : Opening) (node : Node) :
    Copied (fun label => label) opening.fill node := by
  constructor
  · rw [Kind.relabel_self, fill_eq]
    rfl
  all_goals
    rw [fill_eq]
    rfl

variable {opening : Opening} {node : Node}

theorem children_fill (h : node.id = opening.owner) :
    (opening.fill node).children = (node.children.map opening.fill).take opening.position ++
      opening.piece :: (node.children.map opening.fill).drop opening.position := by
  rw [fill_eq]
  exact if_pos h

theorem children_fill_of_ne (h : node.id ≠ opening.owner) :
    (opening.fill node).children = node.children.map opening.fill := by
  rw [fill_eq]
  exact if_neg h

/-- Trees without the owner are copied faithfully. -/
theorem faithful_fill (h : ∀ inner ∈ node.walk, inner.id ≠ opening.owner) :
    Faithful (fun label => label) opening.fill node := by
  exact fun inner hi => ⟨opening.copied_fill inner, children_fill_of_ne (h inner hi)⟩

theorem fill_eq_rename (h : ∀ inner ∈ node.walk, inner.id ≠ opening.owner) :
    opening.fill node = node.rename (fun label => label) opening.number := by
  refine transform_congr fun inner hi parts => ?_
  rw [Kind.relabel_self]
  exact congrArg
    (fun children => { inner.withParts parts with id := opening.number inner.id, children })
    (if_neg (h inner hi))

theorem fill_eq_self
    (h : ∀ inner ∈ node.walk, inner.id ≠ opening.owner ∧ opening.number inner.id = inner.id) :
    opening.fill node = node := by
  have hsame : node.rename (fun label => label) opening.number =
      node.transform fun node => node := by
    refine transform_congr fun inner hi parts => ?_
    rw [Kind.relabel_self]
    exact congrArg (fun id => { inner.withParts parts with id }) (h inner hi).2
  rw [fill_eq_rename fun inner hi => (h inner hi).1, hsame, transform_self]

/-- Pieces away from the owner whose numbers move in a row are numbered from elsewhere. -/
theorem fill_numberFrom {first second : Nat}
    (h : ∀ id, first ≤ id → id < first + total [node] → id ≠ opening.owner)
    (hm : Shifts opening.number first second (total [node])) :
    opening.fill (node.numberFrom first).1 = (node.numberFrom second).1 := by
  have hbetween := between_numberFrom node first
  rw [fill_eq_rename fun inner hi => h _ (hbetween inner hi).1 (hbetween inner hi).2,
    rename_numberFrom _ opening.number node hm, relabel_self]

theorem map_fill_numberAll {nodes : List Node} {first second : Nat}
    (h : ∀ id, first ≤ id → id < first + total nodes → id ≠ opening.owner)
    (hm : Shifts opening.number first second (total nodes)) :
    (Kind.numberAll (nodes.map numberFrom) first).1.map opening.fill =
      (Kind.numberAll (nodes.map numberFrom) second).1 := by
  have hsame : ∀ node ∈ (Kind.numberAll (nodes.map numberFrom) first).1,
      opening.fill node = node.rename (fun label => label) opening.number := fun node hn =>
    fill_eq_rename fun inner hi =>
      h _ (between_numberAll hn inner hi).1 (between_numberAll hn inner hi).2
  have hself : nodes.map (relabel fun label => label) = nodes :=
    (List.map_congr_left fun node _ => relabel_self node).trans (List.map_id' nodes)
  rw [List.map_congr_left hsame,
    rename_numberAll (fun node _ => rename_numberFrom _ opening.number node) hm, hself]

end Opening

/-- The numbers before a place stay, and those from there on make room for more numbers. -/
structure MakesRoom (number : Nat → Nat) (first place last count : Nat) : Prop where
  stays : ∀ id, first ≤ id → id < place → number id = id
  shifts : ∀ id, place ≤ id → id < last → number id = id + count

namespace MakesRoom

variable {number : Nat → Nat} {first place last count : Nat}
  (h : MakesRoom number first place last count)
include h

theorem moves_before {start size : Nat} (hs : first ≤ start) (hl : start + size ≤ place) :
    Shifts number start start size :=
  fun i hi => h.stays _ (by omega) (by omega)

theorem moves_after {start size : Nat} (hs : place ≤ start) (hl : start + size ≤ last) :
    Shifts number start (start + count) size := by
  intro i hi
  rw [h.shifts _ (by omega) (by omega)]
  omega

theorem mono {lower upper : Nat} (hl : first ≤ lower) (hu : upper ≤ last) :
    MakesRoom number lower place upper count :=
  ⟨fun id hi => h.stays id (by omega), fun id hi hlt => h.shifts id hi (by omega)⟩

end MakesRoom

/-- Numbering the tree with the new node is filling an opening of the numbered tree. -/
structure Fills (new node grown : Node) (first owner position place : Nat) : Prop where
  first_le : first ≤ owner
  owner_lt : owner < place
  place_le : place ≤ first + total [node]
  total_eq : total [grown] = total [node] + total [new]
  mem : (new.numberFrom place).1 ∈ (grown.numberFrom first).1.walk
  fill_eq : ∀ number, MakesRoom number first place (first + total [node]) (total [new]) →
    Opening.fill ⟨owner, position, (new.numberFrom place).1, number⟩ (node.numberFrom first).1 =
      (grown.numberFrom first).1
  fill_grown : ∀ number, Grown (fun label => label)
    (Opening.fill ⟨owner, position, (new.numberFrom place).1, number⟩)
    (fun piece => piece = (new.numberFrom place).1) (node.numberFrom first).1

/-- A numbered node is filled like its children, if the rest of what it owns stays. -/
theorem fill_numberFrom_of {opening : Opening} {owner : Node} {first : Nat} {children : List Node}
    (hfirst : opening.number first = first)
    (hheld : ∀ id, first < id → id < owner.childStart first →
      id ≠ opening.owner ∧ opening.number id = id)
    (hchildren : (opening.fill (owner.numberFrom first).1).children =
      (Kind.numberAll (children.map numberFrom) (owner.childStart first)).1) :
    opening.fill (owner.numberFrom first).1 =
      (({ owner with children } : Node).numberFrom first).1 := by
  have hcopied := opening.copied_fill (owner.numberFrom first).1
  have hself : ∀ member ∈ (owner.numberFrom first).1.caption.getD [] ++
      (owner.numberFrom first).1.kind.lists.flatten, opening.fill member = member :=
    fun member hm => Opening.fill_eq_self fun inner hi =>
      hheld _ (between_held hm inner hi).1 (between_held hm inner hi).2
  obtain ⟨hspace, hname, hid⟩ := numberFrom_rest owner first
  obtain ⟨hspaces, hnames, hids⟩ := numberFrom_rest { owner with children } first
  refine eq_of_fields ?_ ?_ ?_ ?_ ?_ ?_
  · rw [hcopied.kind, Kind.relabel_self, Kind.map_congr fun list hl member hm => hself member
      (List.mem_append_right _ (List.mem_flatten.mpr ⟨list, hl, hm⟩)), numberFrom_kind]
    exact (Kind.map_id _).trans (numberFrom_kind { owner with children } first).symm
  · rw [hchildren, numberFrom_children]
    rfl
  · rw [hcopied.postBlank, hspace, hspaces]
  · rw [hcopied.name, hname, hnames]
  · have hcaption : (({ owner with children } : Node).numberFrom first).1.caption =
        (owner.numberFrom first).1.caption := by
      rw [numberFrom_caption, numberFrom_caption]
    rw [hcopied.caption, hcaption]
    cases hc : (owner.numberFrom first).1.caption with
    | none => rfl
    | some caption =>
        rw [hc] at hself
        exact congrArg some ((List.map_congr_left fun member hm => hself member
          (List.mem_append_left _ hm)).trans (List.map_id' caption))
  · rw [Opening.fill_eq, hids]
    exact (congrArg opening.number hid).trans hfirst

theorem total_cons (node : Node) (nodes : List Node) :
    total (node :: nodes) = total [node] + total nodes :=
  total_append [node] nodes

theorem first_add_total (node : Node) (first : Nat) :
    first + total [node] = node.childStart first + total node.children := by
  rw [total_node, childStart]
  omega

theorem lt_childStart (node : Node) (first : Nat) : first < node.childStart first := by
  rw [childStart]
  omega

theorem numberAll_append_cons (before : List Node) (node : Node) (after : List Node)
    (first : Nat) :
    (Kind.numberAll ((before ++ node :: after).map numberFrom) first).1 =
      (Kind.numberAll (before.map numberFrom) first).1 ++
        (node.numberFrom (first + total before)).1 ::
          (Kind.numberAll (after.map numberFrom) (first + total before + total [node])).1 := by
  rw [numberAll_append]
  simp only [List.map_cons, Kind.numberAll, snd_numberFrom]

theorem isFrame_numberFrom (node : Node) (first : Nat) :
    (node.numberFrom first).1.kind.isFrame = node.kind.isFrame := by
  rw [← Kind.isFrame_bare, ← Kind.isFrame_bare node.kind]
  exact congrArg (fun surface : Surface => surface.kind.isFrame) (surface_numberFrom node first)

theorem isBlock_numberAll {nodes : List Node} (h : ∀ node ∈ nodes, node.kind.isBlock = true)
    {first : Nat} {node : Node} (hn : node ∈ (Kind.numberAll (nodes.map numberFrom) first).1) :
    node.kind.isBlock = true := by
  induction nodes generalizing first with
  | nil => cases hn
  | cons block nodes ih =>
      obtain ⟨hblock, hrest⟩ := List.forall_mem_cons.mp h
      obtain rfl | hn := List.mem_cons.mp hn
      · rw [← isBlock_surface, surface_numberFrom, isBlock_surface, hblock]
      · exact ih hrest hn

section Fills

variable {new owner : Node} {before after : List Node} (kind : owner.kind.isFrame = true)
include kind

theorem fills_among (children : owner.children = before ++ after)
    (blocks : ∀ child ∈ owner.children, child.kind.isBlock = true) (first : Nat) :
    Fills new owner { owner with children := before ++ new :: after } first first before.length
      (owner.childStart first + total before) := by
  have hlt := owner.lt_childStart first
  have hlast := owner.first_add_total first
  have hold := numberFrom_children owner first
  have hid := (numberFrom_rest owner first).2.2
  rw [children, total_append] at hlast
  refine ⟨Nat.le_refl _, by omega, by omega, ?_, ?_, fun number hroom => ?_, fun number => ?_⟩
  · have hgrown := first_add_total { owner with children := before ++ new :: after } first
    change first + _ = owner.childStart first + total (before ++ new :: after) at hgrown
    rw [total_append, total_cons new after] at hgrown
    omega
  · refine mem_walk_of_mem_members (mem_members_of_children ?_)
    rw [numberFrom_children, numberAll_append_cons]
    exact List.mem_append_right _ List.mem_cons_self
  · have hlength : (Kind.numberAll (before.map numberFrom) (owner.childStart first)).1.length =
        before.length := (forall₂_numberAll before _).length_eq.symm
    refine fill_numberFrom_of (hroom.stays _ (Nat.le_refl _) (by omega)) (fun id hi hlt =>
      ⟨by change id ≠ first; omega, hroom.stays _ (by omega) (by omega)⟩) ?_
    rw [Opening.children_fill hid, hold, children, numberAll_append, List.map_append,
      Opening.map_fill_numberAll (fun id hi _ => by change id ≠ first; omega)
        (hroom.moves_before (by omega) (by omega)),
      Opening.map_fill_numberAll (fun id hi _ => by change id ≠ first; omega)
        (hroom.moves_after (by omega) (by omega)),
      numberAll_append_cons, List.take_left' hlength, List.drop_left' hlength]
  · have hne : ∀ {last : Nat} {member : Node}, Between (first + 1) last member →
        ∀ inner ∈ member.walk, inner.id ≠ first := by
      intro last member hb inner hi heq
      have := (hb inner hi).1
      omega
    refine .frame ((isFrame_numberFrom owner first).trans kind) (Opening.copied_fill _ _)
      (fun member hm => Opening.faithful_fill (hne (between_held hm))) (.inr ⟨?_, ?_⟩)
      fun child hc => .faithful (Opening.faithful_fill ?_)
    · rw [hold]
      exact fun child hc => isBlock_numberAll blocks hc
    · rw [Opening.children_fill hid]
      refine .of_insert ?_ _ _
      rfl
    · rw [hold] at hc
      exact hne ((between_numberAll hc).mono hlt (Nat.le_refl _))

theorem fills_inside {child grown : Node} {first number position place : Nat}
    (children : owner.children = before ++ child :: after)
    (h : Fills new child grown (owner.childStart first + total before) number position place) :
    Fills new owner { owner with children := before ++ grown :: after } first number position
      place := by
  have hlt := owner.lt_childStart first
  have hlast := owner.first_add_total first
  have hold := numberFrom_children owner first
  have hid := (numberFrom_rest owner first).2.2
  obtain ⟨hfirst, howner, hplace, htotal, hmem, hfill, hgrown⟩ := h
  rw [children, total_append, total_cons child after] at hlast
  rw [children, numberAll_append_cons] at hold
  have hne : (owner.numberFrom first).1.id ≠ number := by omega
  refine ⟨by omega, howner, by omega, ?_, ?_, fun shift hroom => ?_, fun shift => ?_⟩
  · have hsize := first_add_total { owner with children := before ++ grown :: after } first
    change first + _ = owner.childStart first + total (before ++ grown :: after) at hsize
    rw [total_append, total_cons grown after] at hsize
    omega
  · refine mem_walk_of_mem_member hmem (mem_members_of_children ?_)
    rw [numberFrom_children, numberAll_append_cons]
    exact List.mem_append_right _ List.mem_cons_self
  · refine fill_numberFrom_of (hroom.stays _ (Nat.le_refl _) (by omega)) (fun id hi hlt =>
      ⟨by change id ≠ number; omega, hroom.stays _ (by omega) (by omega)⟩) ?_
    rw [Opening.children_fill_of_ne hne, hold, List.map_append, List.map_cons,
      Opening.map_fill_numberAll (fun id hi _ => by change id ≠ number; omega)
        (hroom.moves_before (by omega) (by omega)),
      Opening.map_fill_numberAll (fun id hi _ => by change id ≠ number; omega)
        (hroom.moves_after (by omega) (by omega)),
      hfill shift (hroom.mono (by omega) (by omega)), numberAll_append_cons, htotal,
      Nat.add_assoc _ (total [child])]
  · have hstay : ∀ {lower upper : Nat} {member : Node}, Between lower upper member →
        upper ≤ number ∨ number < lower → ∀ inner ∈ member.walk, inner.id ≠ number := by
      intro lower upper member hb hside inner hi heq
      have := hb inner hi
      omega
    refine .frame ((isFrame_numberFrom owner first).trans kind) (Opening.copied_fill _ _)
      (fun member hm => Opening.faithful_fill (hstay (between_held hm) (.inl (by omega))))
      (.inl (Opening.children_fill_of_ne hne)) fun member hm => ?_
    rw [hold, List.mem_append, List.mem_cons] at hm
    obtain hm | rfl | hm := hm
    · exact .faithful (Opening.faithful_fill (hstay (between_numberAll hm) (.inl (by omega))))
    · exact hgrown shift
    · exact .faithful (Opening.faithful_fill (hstay (between_numberAll hm) (.inr (by omega))))

end Fills

theorem Inserted.fills {new node grown : Node} (h : Inserted new node grown) (first : Nat) :
    ∃ owner position place, Fills new node grown first owner position place := by
  induction h generalizing first with
  | @among owner before after kind children blocks =>
      exact ⟨_, _, _, fills_among kind children blocks first⟩
  | @inside owner child grown before after kind children h ih =>
      obtain ⟨number, position, place, hfills⟩ := ih (owner.childStart first + total before)
      exact ⟨number, position, place, fills_inside kind children hfills⟩

end Node
end OutlineWiki
