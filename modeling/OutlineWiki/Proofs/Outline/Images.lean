import OutlineWiki.Proofs.Outline.Copies

/-!
Images of trees.

A prepared tree is the image of another one if it is a copy of it, up to further nodes that
neither show nor are noticed from elsewhere. It may also hold the copies of pieces that lie
beside the other tree. In an image a copied node stands where its original stood, up to the
further nodes between blocks.
-/

namespace OutlineWiki
namespace Node

/-- The node is nothing that links lead to or that is numbered. -/
structure Unnoticed (node : Node) : Prop where
  name : node.name = none
  caption : node.caption = none
  kind : node.kind.isSimple = true

/-- The nodes of a tree and of pieces beside it. -/
def walkWith (base : Node) (pieces : List Node) : List Node :=
  base.walk ++ pieces.flatMap walk

theorem mem_walkWith_iff {base node : Node} {pieces : List Node} :
    node ∈ base.walkWith pieces ↔ ∃ tree ∈ base :: pieces, node ∈ tree.walk := by
  rw [walkWith, List.mem_append, List.mem_flatMap, List.exists_mem_cons_iff]

theorem mem_walkWith {base node : Node} {pieces : List Node} (h : node ∈ base.walk) :
    node ∈ base.walkWith pieces :=
  List.mem_append_left _ h

theorem mem_walkWith_mono {base node : Node} {pieces others : List Node} (hs : pieces ⊆ others)
    (h : node ∈ base.walkWith pieces) : node ∈ base.walkWith others := by
  obtain ⟨tree, ht, hin⟩ := mem_walkWith_iff.mp h
  exact mem_walkWith_iff.mpr ⟨tree, List.cons_subset_cons base hs ht, hin⟩

theorem walkWith_nil (base : Node) : base.walkWith [] = base.walk :=
  List.append_nil _

end Node

/-- A prepared tree that is the image of another one, and that holds the images of further
pieces. -/
structure Image (f : String → String) (image : Node → Node) (extra : Node → Prop) (source : Node)
    (pieces : List Node) (root : Node) : Prop where
  root_eq : image source.prepare = root.prepare
  grown : Node.Grown f image extra source.prepare
  extra : ∀ node, extra node →
    node.kind.isSilent = true ∧ ∀ inner ∈ node.walk, inner.Unnoticed
  piece : ∀ piece ∈ pieces, piece.kind.isSilent = true ∧
    (∀ inner ∈ piece.walk, inner.kind.isSimple = true) ∧ Node.Faithful f image piece ∧
      image piece ∈ root.prepare.walk
  /-- The numbers tell all nodes apart, and so do those of the images. -/
  number : ∀ node ∈ source.prepare.walkWith pieces, ∀ other ∈ source.prepare.walkWith pieces,
    (node.id = other.id → node = other) ∧ ((image node).id = (image other).id → node.id = other.id)
  label : ∀ node ∈ source.prepare.walkWith pieces, ∀ label, node.label? = some label →
    ∀ other ∈ source.prepare.walkWith pieces, ∀ another, other.label? = some another →
      f label = f another → label = another
  /-- The text of a footnote is the image of the first one in the tree and the pieces. -/
  definition : ∀ node ∈ source.prepare.walkWith pieces, ∀ label, node.label? = some label →
    (Index.ofTree root.prepare).definition? (f label) =
      ((source.prepare.walkWith pieces).find? (·.definesFootnote label)).map image

namespace Image

variable {f : String → String} {image : Node → Node} {extra : Node → Prop}
  {source : Node} {pieces : List Node} {root : Node} (h : Image f image extra source pieces root)
include h

theorem grown_of_mem {node : Node} (hn : node ∈ source.prepare.walkWith pieces) :
    node.Grown f image extra := by
  obtain ⟨tree, ht, hin⟩ := Node.mem_walkWith_iff.mp hn
  obtain rfl | ht := List.mem_cons.mp ht
  · exact h.grown.of_mem_walk hin
  · exact .faithful ((h.piece tree ht).2.2.1.of_mem_walk hin)

theorem mem_walk {node : Node} (hn : node ∈ source.prepare.walkWith pieces) :
    image node ∈ root.prepare.walk := by
  obtain ⟨tree, ht, hin⟩ := Node.mem_walkWith_iff.mp hn
  obtain rfl | ht := List.mem_cons.mp ht
  · rw [← h.root_eq]
    exact h.grown.walk.sublist.subset (List.mem_map_of_mem hin)
  · obtain ⟨_, _, hfaithful, hmem⟩ := h.piece tree ht
    exact Node.mem_walk_trans (hfaithful.walk ▸ List.mem_map_of_mem hin) hmem

omit h in
theorem mem_of_mem_members {node owner : Node} (ho : owner ∈ source.prepare.walkWith pieces)
    (hm : node ∈ owner.members) : node ∈ source.prepare.walkWith pieces := by
  obtain ⟨tree, ht, hin⟩ := Node.mem_walkWith_iff.mp ho
  exact Node.mem_walkWith_iff.mpr
    ⟨tree, ht, Node.mem_walk_trans (Node.mem_walk_of_mem_members hm) hin⟩

/-- Every node has an owner, apart from the root and the pieces, which have no markup. -/
theorem exists_owner {node : Node} (hn : node ∈ source.prepare.walkWith pieces)
    (hk : node.kind.isSilent = false) :
    node = source.prepare ∨ ∃ owner ∈ source.prepare.walkWith pieces, node ∈ owner.members := by
  obtain ⟨tree, ht, hin⟩ := Node.mem_walkWith_iff.mp hn
  obtain rfl | hbelow := Node.mem_walk_iff.mp hin
  · obtain rfl | ht := List.mem_cons.mp ht
    · exact .inl rfl
    · rw [(h.piece node ht).1] at hk
      cases hk
  · obtain ⟨owner, howner, hm⟩ := Node.mem_descendants_iff.mp hbelow
    exact .inr ⟨owner, Node.mem_walkWith_iff.mpr ⟨tree, ht, howner⟩, hm⟩

theorem mem_members {node owner : Node} (ho : owner ∈ source.prepare.walkWith pieces)
    (hm : node ∈ owner.members) : image node ∈ (image owner).members := by
  have hgrown := h.grown_of_mem ho
  rw [Node.members_eq] at hm ⊢
  rw [hgrown.copied.held]
  obtain hm | hm := List.mem_append.mp hm
  · exact List.mem_append_left _ (List.mem_map_of_mem hm)
  · exact List.mem_append_right _ (hgrown.interspersed.sublist.subset (List.mem_map_of_mem hm))

theorem parent?_image {node owner : Node} (ho : owner ∈ source.prepare.walkWith pieces)
    (hm : node ∈ owner.members) :
    (Index.ofTree root.prepare).parent? (image node) = some (image owner) :=
  Index.parent?_of_mem_members (h.mem_walk ho) (h.mem_members ho hm)

theorem parentBlock?_image {node owner : Node} (ho : owner ∈ source.prepare.walkWith pieces)
    (hm : node ∈ owner.members) :
    (Index.ofTree root.prepare).parentBlock? (image node) =
      if owner.kind.isBlock then some (image owner)
      else (Index.ofTree root.prepare).parentBlock? (image owner) := by
  obtain ⟨list, hl, hin⟩ := Node.mem_members_iff.mp (h.mem_members ho hm)
  obtain ⟨before, after, rfl⟩ := List.append_of_mem hin
  rw [(Index.lookups_of_mem_lists (h.mem_walk ho) hl).2.2.2,
    (h.grown_of_mem ho).copied.isBlock]

/-- Nothing is put in where nodes stand in a line. -/
theorem lists_image {owner : Node} (ho : owner ∈ source.prepare.walkWith pieces)
    {list : List Node} (hl : list ∈ owner.lists) {node : Node} (hn : node ∈ list)
    (hk : node.kind.isBlock = false) : list.map image ∈ (image owner).lists := by
  have hgrown := h.grown_of_mem ho
  rw [hgrown.copied.lists, hgrown.copied.caption]
  rw [Node.lists, Parts.lists, Node.parts] at hl
  simp only [List.mem_append, Option.mem_toList, List.mem_singleton] at hl ⊢
  obtain (hl | hl) | rfl := hl
  · exact .inl (.inl (by rw [hl]; rfl))
  · exact .inl (.inr (List.mem_map_of_mem hl))
  · obtain heq | ⟨hblocks, _⟩ := hgrown.children
    · exact .inr heq.symm
    · rw [hblocks node hn] at hk
      cases hk

theorem position?_image {owner node : Node} (ho : owner ∈ source.prepare.walkWith pieces)
    {before after : List Node} (hl : before ++ node :: after ∈ owner.lists)
    (hk : node.kind.isBlock = false) :
    (Index.ofTree root.prepare).position? (image node) = some before.length ∧
      (Index.ofTree root.prepare).previous? (image node) = before.getLast?.map image := by
  have hmap := h.lists_image ho hl (List.mem_append_right _ List.mem_cons_self) hk
  rw [List.map_append, List.map_cons] at hmap
  obtain ⟨_, hposition, hprevious, _⟩ := Index.lookups_of_mem_lists (h.mem_walk ho) hmap
  rw [hposition, hprevious, List.length_map, List.getLast?_map]
  exact ⟨rfl, rfl⟩

omit h in
/-- Every tree is an image of itself. -/
theorem self (root : Node) :
    Image (fun label => label) (fun node => node) (fun _ => False) root [] root where
  root_eq := rfl
  grown := .faithful (Node.faithful_self _)
  extra _ hnode := hnode.elim
  piece _ hp := by cases hp
  number node hn other ho := by
    rw [Node.walkWith_nil] at hn ho
    exact ⟨Node.eq_of_id_eq hn ho, fun hid => hid⟩
  label _ _ _ _ _ _ _ _ hlabel := hlabel
  definition _ _ _ _ := by
    rw [Node.walkWith_nil, Index.definition?_eq_find?, Option.map_id']

end Image
end OutlineWiki
