import OutlineWiki.Proofs.Outline.Insertion

/-!
A tree with a further node as an image of the tree without it.

The nodes that come after the new one make room for its numbers. Beside the tree without it
the new node can be kept as a piece with the numbers behind those of the tree, so that trees
with the node in different places are images of the same tree and piece.
-/

namespace OutlineWiki

/-- The numbers in a tree of some size that makes room for some numbers at a place, and those of
a piece numbered behind the tree that goes there. -/
def opened (place size count id : Nat) : Nat :=
  if id < place then id else if id < size then id + count else id - size + place

theorem opened_inj {place size count id other : Nat} (hi : id < size + count)
    (ho : other < size + count)
    (h : opened place size count id = opened place size count other) : id = other := by
  simp only [opened] at h
  grind

namespace Node

theorem makesRoom_opened (place size count : Nat) :
    MakesRoom (opened place size count) 0 place size count := by
  constructor
  · intro id _ hi
    exact if_pos hi
  · intro id hp hi
    rw [opened, if_neg (by omega), if_pos hi]

theorem moves_opened {place size count : Nat} (h : place ≤ size) :
    Shifts (opened place size count) size place count := by
  intro i _
  rw [opened, if_neg (by omega), if_neg (by omega)]
  omega

theorem length_walk_prepare (root : Node) :
    root.prepare.walk.length = total [root.separateBlocks] := by
  have h := congrArg List.length (consecutive_numberFrom root.separateBlocks 0).ids_eq
  simpa [ids, prepare] using h

/-- The node prepared as a piece beside a tree. -/
def detached (base new : Node) : Node :=
  ((new.transform spaced).numberFrom base.prepare.walk.length).1

theorem walk_surface_piece (new : Node) (first : Nat) :
    ((new.transform spaced).numberFrom first).1.walk.map surface = new.walk.map surface :=
  (walk_surface_numberFrom _ first).trans (walk_surface_transform_spaced new)

theorem surface_piece (new : Node) (first : Nat) :
    ((new.transform spaced).numberFrom first).1.surface = new.surface := by
  rw [surface_numberFrom, transform_eq, surface_spaced, surface_withParts_map]

/-- What holds of the surfaces of some nodes holds of nodes with the same surfaces. -/
theorem forall_of_surfaces {P : Surface → Prop} {nodes others : List Node}
    (hs : others.map surface = nodes.map surface) (h : ∀ node ∈ nodes, P node.surface) :
    ∀ node ∈ others, P node.surface := by
  rw [← List.forall_mem_map] at h ⊢
  rwa [hs]

theorem isSilent_piece (new : Node) (first : Nat) :
    ((new.transform spaced).numberFrom first).1.kind.isSilent = new.kind.isSilent := by
  rw [← isSilent_surface, surface_piece, isSilent_surface]

theorem definesFootnote_piece (new : Node) (first : Nat) (label : String) :
    ((new.transform spaced).numberFrom first).1.definesFootnote label =
      new.definesFootnote label := by
  rw [← definesFootnote_surface, surface_piece, definesFootnote_surface]

theorem unnoticed_piece {new : Node} (h : ∀ inner ∈ new.walk, inner.Unnoticed) (first : Nat) :
    ∀ inner ∈ ((new.transform spaced).numberFrom first).1.walk, inner.Unnoticed := by
  simp only [unnoticed_surface] at h ⊢
  exact forall_of_surfaces (P := fun surface => surface.name = none ∧
    surface.isCaptioned = false ∧ surface.kind.isSimple = true) (walk_surface_piece new first) h

/-- The numbers in a tree and a detached piece count on from the tree to the piece. -/
theorem ids_walkWith_detached (base new : Node) :
    (base.prepare.walkWith [base.detached new]).map (·.id) =
      List.range (base.prepare.walk.length + total [new.transform spaced]) := by
  have hpiece := (consecutive_numberFrom (new.transform spaced) base.prepare.walk.length).ids_eq
  simp only [ids, List.flatMap_cons, List.flatMap_nil, List.append_nil] at hpiece
  rw [walkWith, List.flatMap_cons, List.flatMap_nil, List.append_nil, List.map_append,
    ids_prepare, detached, hpiece, List.range_eq_range', List.range_eq_range',
    ← List.range'_append_1, Nat.zero_add]

/-- No node of the tree gives the text of the footnote with the label. -/
def LacksText (label : String) (tree : Node) : Prop :=
  ∀ node ∈ tree.walk, node.definesFootnote label = false

theorem LacksText.of_surface {label : String} {node other : Node}
    (hs : other.walk.map surface = node.walk.map surface) (h : node.LacksText label) :
    other.LacksText label := by
  intro inner hi
  rw [← definesFootnote_surface]
  exact forall_of_surfaces (P := fun surface => surface.definesFootnote label = false) hs
    (fun lower hl => (definesFootnote_surface label lower).trans (h lower hl)) inner hi

theorem forall_descendants_piece {label : String} {new : Node}
    (h : ∀ inner ∈ new.descendants, inner.definesFootnote label = false) (first : Nat) :
    ∀ inner ∈ ((new.transform spaced).numberFrom first).1.descendants,
      inner.definesFootnote label = false := by
  have hwalk := walk_surface_piece new first
  rw [walk_eq_cons_descendants, walk_eq_cons_descendants, List.map_cons, List.map_cons,
    surface_piece, List.cons.injEq] at hwalk
  simp only [← definesFootnote_surface] at h ⊢
  exact forall_of_surfaces (P := fun surface => surface.definesFootnote label = false) hwalk.2 h

section Texts

variable {base tree piece : Node} {image : Node → Node} {label : String}
  (root_eq : image base.prepare = tree.prepare)
  (grown : Grown (fun label => label) image (fun inner => inner = piece) base.prepare)
include root_eq grown

theorem find?_text_of_other (h : piece.LacksText label) :
    tree.prepare.walk.find? (·.definesFootnote label) =
      (base.prepare.walk.find? (·.definesFootnote label)).map image := by
  have hwalk := grown.walk
  rw [root_eq] at hwalk
  have hextra : ∀ inner, Within (fun inner => inner = piece) inner →
      inner.definesFootnote label = false := by
    rintro inner ⟨_, rfl, hi⟩
    exact h inner hi
  rw [hwalk.find?_eq hextra, List.find?_map, ← List.head?_filter, ← List.head?_filter]
  refine congrArg (fun nodes : List Node => nodes.head?.map image)
    (List.filter_congr fun node hn => ?_)
  exact (grown.of_mem_walk hn).definesFootnote label

theorem find?_text_of_piece (hm : piece ∈ tree.prepare.walk) (hb : base.prepare.LacksText label)
    (hp : piece.definesFootnote label = true)
    (hbelow : ∀ inner ∈ piece.descendants, inner.definesFootnote label = false) :
    tree.prepare.walk.find? (·.definesFootnote label) = some piece := by
  obtain ⟨found, hfound⟩ := Option.isSome_iff_exists.mp
    (List.find?_isSome.mpr ⟨piece, hm, hp⟩)
  have hdefines := List.find?_some hfound
  have hwalk := grown.walk
  rw [root_eq] at hwalk
  obtain hkept | ⟨_, rfl, hin⟩ := hwalk.mem_or (List.mem_of_find?_eq_some hfound)
  · obtain ⟨node, hn, rfl⟩ := List.mem_map.mp hkept
    rw [(grown.of_mem_walk hn).definesFootnote, hb node hn] at hdefines
    cases hdefines
  · obtain rfl | hin := mem_walk_iff.mp hin
    · exact hfound
    · rw [hbelow found hin] at hdefines
      cases hdefines

end Texts

/-- The opening of a new node in a prepared tree. -/
def Opening.forNew (new base : Node) (owner position place : Nat) : Opening :=
  ⟨owner, position, ((new.transform spaced).numberFrom place).1,
    opened place base.prepare.walk.length (total [new.transform spaced])⟩

/-- The numbers tell the nodes of the tree and the piece apart, and so do those after filling. -/
theorem Opening.apart_forNew {new base node other : Node} {owner position place : Nat}
    (hn : node ∈ base.prepare.walkWith [base.detached new])
    (ho : other ∈ base.prepare.walkWith [base.detached new]) :
    (node.id = other.id → node = other) ∧
      (((forNew new base owner position place).fill node).id =
        ((forNew new base owner position place).fill other).id → node.id = other.id) := by
  have hnodup : ((base.prepare.walkWith [base.detached new]).map (·.id)).Nodup := by
    rw [ids_walkWith_detached]
    exact List.nodup_range
  have hlt : ∀ {inner : Node}, inner ∈ base.prepare.walkWith [base.detached new] →
      inner.id < base.prepare.walk.length + total [new.transform spaced] := by
    intro inner hi
    rw [← List.mem_range, ← ids_walkWith_detached]
    exact List.mem_map_of_mem hi
  refine ⟨List.inj_on_of_nodup_map hnodup hn ho, fun hid => ?_⟩
  rw [fill_eq, fill_eq] at hid
  exact opened_inj (hlt hn) (hlt ho) hid

namespace Fills

variable {new base tree : Node} {owner position place : Nat}
  (h : Fills (new.transform spaced) base.separateBlocks tree.separateBlocks 0 owner position place)
include h

theorem fill_prepare : (Opening.forNew new base owner position place).fill base.prepare =
    tree.prepare := by
  refine h.fill_eq _ ?_
  rw [Nat.zero_add, ← length_walk_prepare]
  exact makesRoom_opened _ _ _

theorem place_le_length : place ≤ base.prepare.walk.length := by
  rw [length_walk_prepare]
  simpa only [Nat.zero_add] using h.place_le

theorem ne_owner {id : Nat} (hi : base.prepare.walk.length ≤ id) : id ≠ owner := by
  have := h.owner_lt
  have := h.place_le_length
  omega

theorem fill_detached : (Opening.forNew new base owner position place).fill (base.detached new) =
    ((new.transform spaced).numberFrom place).1 :=
  Opening.fill_numberFrom (fun _ hi _ => h.ne_owner hi) (moves_opened h.place_le_length)

theorem faithful_detached :
    Faithful (fun label => label) (Opening.forNew new base owner position place).fill
      (base.detached new) :=
  Opening.faithful_fill fun inner hi => h.ne_owner (between_numberFrom _ _ inner hi).1

theorem find?_text_of_lacking {pieces : List Node} {label : String}
    (hpieces : pieces ⊆ [base.detached new]) (hlacks : new.LacksText label) :
    tree.prepare.walk.find? (·.definesFootnote label) =
      ((base.prepare.walkWith pieces).find? (·.definesFootnote label)).map
        (Opening.forNew new base owner position place).fill := by
  have hpiece : (pieces.flatMap walk).find? (·.definesFootnote label) = none := by
    refine List.find?_eq_none.mpr fun inner hi => Bool.eq_false_iff.mp ?_
    obtain ⟨piece, hp, hin⟩ := List.mem_flatMap.mp hi
    obtain rfl := List.mem_singleton.mp (hpieces hp)
    exact hlacks.of_surface (walk_surface_piece new _) inner hin
  rw [find?_text_of_other h.fill_prepare (h.fill_grown _)
    (hlacks.of_surface (walk_surface_piece new place)), walkWith, List.find?_append, hpiece,
    Option.or_none]

theorem find?_text_of_only {label : String} (hbase : base.LacksText label)
    (hown : new.definesFootnote label = true)
    (hbelow : ∀ inner ∈ new.descendants, inner.definesFootnote label = false) :
    tree.prepare.walk.find? (·.definesFootnote label) =
      ((base.prepare.walkWith [base.detached new]).find? (·.definesFootnote label)).map
        (Opening.forNew new base owner position place).fill := by
  have hrest := hbase.of_surface (walk_surface_prepare base)
  have hfirst : (base.detached new).walk.find? (·.definesFootnote label) =
      some (base.detached new) := by
    rw [walk_eq, List.find?_cons, detached, definesFootnote_piece, hown]
  rw [find?_text_of_piece h.fill_prepare (h.fill_grown _) h.mem hrest
    ((definesFootnote_piece new place label).trans hown) (forall_descendants_piece hbelow place),
    walkWith, List.find?_append,
    List.find?_eq_none.mpr fun node hn => Bool.eq_false_iff.mp (hrest node hn),
    Option.none_or, List.flatMap_cons, List.flatMap_nil, List.append_nil, hfirst,
    Option.map_some, h.fill_detached]

end Fills

/-- Preparation numbers a further node and all below it. -/
theorem Inserted.length_walk_prepare {new base tree : Node} (h : Inserted new base tree) :
    tree.prepare.walk.length = base.prepare.walk.length + total [new.transform spaced] := by
  obtain ⟨owner, position, place, hfills⟩ := h.separateBlocks.fills 0
  rw [Node.length_walk_prepare, Node.length_walk_prepare, hfills.total_eq]

theorem Inserted.length_walk_lt {new base tree : Node} (h : Inserted new base tree) :
    base.prepare.walk.length < tree.prepare.walk.length := by
  rw [h.length_walk_prepare, total_node]
  omega

/-- A tree with a new node without markup that nothing leads to is an image of the tree
without it. Either the new node gives no text of a footnote, or it is a piece beside the tree
and gives the text of its own footnote, which nothing else does. -/
theorem Inserted.exists_image {new base tree : Node} {pieces : List Node}
    (h : Inserted new base tree) (hsilent : new.kind.isSilent = true)
    (hnew : ∀ inner ∈ new.walk, inner.Unnoticed) (hpieces : pieces ⊆ [base.detached new])
    (htext : ∀ label, new.LacksText label ∨
      pieces = [base.detached new] ∧ base.LacksText label ∧ new.definesFootnote label = true ∧
        ∀ inner ∈ new.descendants, inner.definesFootnote label = false) :
    ∃ image extra, Image (fun label => label) image extra base pieces tree := by
  obtain ⟨owner, position, place, hfills⟩ := h.separateBlocks.fills 0
  refine ⟨(Opening.forNew new base owner position place).fill,
    fun inner => inner = ((new.transform spaced).numberFrom place).1, ?_⟩
  constructor
  · exact hfills.fill_prepare
  · exact hfills.fill_grown _
  · rintro _ rfl
    exact ⟨(isSilent_piece new place).trans hsilent, unnoticed_piece hnew place⟩
  · intro piece hp
    obtain rfl := List.mem_singleton.mp (hpieces hp)
    rw [hfills.fill_detached]
    exact ⟨(isSilent_piece new _).trans hsilent,
      fun inner hi => (unnoticed_piece hnew _ inner hi).kind, hfills.faithful_detached, hfills.mem⟩
  · exact fun node hn other ho =>
      Opening.apart_forNew (mem_walkWith_mono hpieces hn) (mem_walkWith_mono hpieces ho)
  · exact fun _ _ _ _ _ _ _ _ heq => heq
  · intro _ _ label _
    rw [Index.definition?_eq_find?]
    obtain hlacks | ⟨rfl, hbase, hown, hbelow⟩ := htext label
    · exact hfills.find?_text_of_lacking hpieces hlacks
    · exact hfills.find?_text_of_only hbase hown hbelow

end Node
end OutlineWiki
