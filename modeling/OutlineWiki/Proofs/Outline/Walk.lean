import Mathlib.Data.List.Basic
import OutlineWiki.Markup.Footnotes

/-!
The nodes of a tree and the places that its index gives them.

The walk of a tree lists its nodes in document order. The index lists the places of the
same nodes in the same order, and a place only names nodes of the tree.
-/

namespace OutlineWiki
namespace Node

theorem mem_walk_self (node : Node) : node ∈ node.walk := by
  rw [walk_eq]
  exact List.mem_cons_self

theorem mem_walk_of_mem_member {inner member node : Node} (h : inner ∈ member.walk)
    (hm : member ∈ node.members) : inner ∈ node.walk := by
  rw [walk_eq]
  exact List.mem_cons_of_mem _ (List.mem_flatMap.mpr ⟨member, hm, h⟩)

theorem mem_walk_of_mem_members {member node : Node} (h : member ∈ node.members) :
    member ∈ node.walk :=
  mem_walk_of_mem_member (mem_walk_self member) h

theorem mem_walk_trans {inner middle node : Node} (h : inner ∈ middle.walk)
    (hm : middle ∈ node.walk) : inner ∈ node.walk := by
  induction node using member_induction with
  | step node ih =>
      rw [walk_eq, List.mem_cons, List.mem_flatMap] at hm
      obtain rfl | ⟨member, hmember, hmiddle⟩ := hm
      · exact h
      · exact mem_walk_of_mem_member (ih member hmember hmiddle) hmember

theorem length_walk_lt {member node : Node} (hm : member ∈ node.members) :
    member.walk.length < node.walk.length := by
  obtain ⟨before, after, hmembers⟩ := List.append_of_mem hm
  rw [walk_eq node, hmembers, List.flatMap_append, List.flatMap_cons, List.length_cons,
    List.length_append, List.length_append]
  omega

theorem mem_members_iff {member node : Node} :
    member ∈ node.members ↔ ∃ list ∈ node.lists, member ∈ list := by
  simp only [members, Parts.members, lists, List.mem_flatten]

theorem mem_members_of_caption {member node : Node} {caption : List Node}
    (hc : node.caption = some caption) (h : member ∈ caption) : member ∈ node.members :=
  mem_members_iff.mpr ⟨caption, by simp [lists, Parts.lists, parts, hc], h⟩

theorem mem_members_of_kind {member node : Node} {list : List Node}
    (hk : list ∈ node.kind.lists) (h : member ∈ list) : member ∈ node.members :=
  mem_members_iff.mpr ⟨list, by simp [lists, Parts.lists, parts, hk], h⟩

theorem mem_members_of_title {member node : Node} {info : HeadlineInfo} {title : List Node}
    (hk : node.kind = .headline info title) (h : member ∈ title) : member ∈ node.members :=
  mem_members_of_kind (by simp [hk, Kind.lists]) h

theorem mem_members_of_tag {member node : Node} {checkbox : Checkbox} {tag : List Node}
    (hk : node.kind = .listItem checkbox (some tag)) (h : member ∈ tag) :
    member ∈ node.members :=
  mem_members_of_kind (by simp [hk, Kind.lists]) h

theorem children_mem_lists (node : Node) : node.children ∈ node.lists :=
  List.mem_append_right _ (List.mem_singleton_self _)

theorem mem_members_of_children {member node : Node} (h : member ∈ node.children) :
    member ∈ node.members :=
  mem_members_iff.mpr ⟨node.children, by simp [lists, Parts.lists, parts], h⟩

theorem placesAt_eq (above : List Node) (position : Nat) (previous : Option Node) (node : Node) :
    placesAt above position previous node =
      ⟨node, above, position, previous⟩ ::
        node.lists.flatMap (placesIn (node :: above) 0 none) := by
  obtain ⟨kind, children, postBlank, name, caption, id⟩ := node
  rw [placesAt.eq_def]
  simp only [lists, Parts.lists, parts, List.flatMap_append, List.flatMap_cons,
    List.flatMap_nil, List.append_nil]
  congr 3
  · cases caption <;> simp
  · cases kind with
    | listItem checkbox tag => cases tag <;> simp [Kind.lists]
    | _ => simp [Kind.lists]

theorem map_placesIn {above : List Node} {nodes : List Node}
    (h : ∀ node ∈ nodes, ∀ position previous,
      (placesAt above position previous node).map (·.node) = node.walk)
    (position : Nat) (previous : Option Node) :
    (placesIn above position previous nodes).map (·.node) = nodes.flatMap walk := by
  induction nodes generalizing position previous with
  | nil => simp [placesIn]
  | cons node nodes ih =>
      have hnode := h node List.mem_cons_self position previous
      have hrest := ih (fun other ho => h other (List.mem_cons_of_mem _ ho)) (position + 1)
        (some node)
      rw [placesIn, List.map_append, hnode, hrest, List.flatMap_cons]

/-- The places of a tree are those of its nodes in document order. -/
theorem map_placesAt (node : Node) (above : List Node) (position : Nat)
    (previous : Option Node) :
    (placesAt above position previous node).map (·.node) = node.walk := by
  induction node using member_induction generalizing above position previous with
  | step node ih =>
      have hlists : ∀ list ∈ node.lists,
          (placesIn (node :: above) 0 none list).map (·.node) = list.flatMap walk :=
        fun list hl => map_placesIn
          (fun member hm position previous =>
            ih member (mem_members_iff.mpr ⟨list, hl, hm⟩) _ position previous) 0 none
      rw [placesAt_eq, walk_eq, List.map_cons, List.map_flatMap,
        List.flatMap_congr hlists, members, Parts.members, List.flatten_eq_flatMap,
        List.flatMap_assoc]
      rfl

theorem above_mem_placesIn {above : List Node} {nodes : List Node} {position : Nat}
    {previous : Option Node} {place : Place} (h : place ∈ placesIn above position previous nodes) :
    ∃ node ∈ nodes, ∃ position previous, place ∈ placesAt above position previous node := by
  induction nodes generalizing position previous with
  | nil => simp [placesIn] at h
  | cons node nodes ih =>
      rw [placesIn, List.mem_append] at h
      obtain h | h := h
      · exact ⟨node, List.mem_cons_self, position, previous, h⟩
      · obtain ⟨other, ho, rest⟩ := ih h
        exact ⟨other, List.mem_cons_of_mem _ ho, rest⟩

theorem above_subset {node : Node} {above : List Node} {position : Nat}
    {previous : Option Node} {place : Place}
    (h : place ∈ placesAt above position previous node) :
    ∀ upper ∈ place.above, upper ∈ above ∨ upper ∈ node.walk := by
  induction node using member_induction generalizing above position previous with
  | step node ih =>
      intro upper hupper
      rw [placesAt_eq, List.mem_cons, List.mem_flatMap] at h
      obtain rfl | ⟨list, hl, hin⟩ := h
      · exact .inl hupper
      · obtain ⟨member, hm, _, _, hat⟩ := above_mem_placesIn hin
        have hmember := mem_members_iff.mpr ⟨list, hl, hm⟩
        obtain hup | hup := ih member hmember hat upper hupper
        · obtain rfl | hup := List.mem_cons.mp hup
          · exact .inr (mem_walk_self upper)
          · exact .inl hup
        · exact .inr (mem_walk_of_mem_member hup hmember)

end Node

namespace Index

theorem size_ofTree (root : Node) : (ofTree root).size = root.walk.length := by
  simp only [size, ofTree, List.size_toArray, ← Node.map_placesAt root [] 0 none, List.length_map]

theorem place?_mem {root : Node} {id : Nat} {place : Place}
    (h : (ofTree root).place? id = some place) : place ∈ root.placesAt [] 0 none := by
  simp only [place?, ofTree, List.getElem?_toArray] at h
  exact List.mem_of_getElem? h

theorem parent?_mem {root node owner : Node} (h : (ofTree root).parent? node = some owner) :
    owner ∈ root.walk := by
  obtain ⟨place, hplace, hhead⟩ := Option.bind_eq_some_iff.mp h
  obtain hup | hup := Node.above_subset (place?_mem hplace) owner (List.mem_of_head? hhead)
  · cases hup
  · exact hup

theorem parentBlock?_mem {root node block : Node}
    (h : (ofTree root).parentBlock? node = some block) : block ∈ root.walk := by
  obtain ⟨place, hplace, hfind⟩ := Option.bind_eq_some_iff.mp h
  obtain hup | hup :=
    Node.above_subset (place?_mem hplace) block (List.mem_of_find?_eq_some hfind)
  · cases hup
  · exact hup

theorem definition?_mem {root definition : Node} {label : String}
    (h : (ofTree root).definition? label = some definition) : definition ∈ root.walk := by
  obtain ⟨place, hplace, rfl⟩ := Option.map_eq_some_iff.mp h
  have hmem := List.mem_of_find?_eq_some hplace
  rw [← Node.map_placesAt root [] 0 none]
  exact List.mem_map_of_mem (by simpa only [ofTree, List.toList_toArray] using hmem)

/-- The text of a footnote stands in the tree when its reference does. -/
theorem footnoteText?_mem {root reference node : Node} {nodes : List Node}
    (hr : reference ∈ root.walk) (h : (ofTree root).footnoteText? reference = some nodes)
    (hn : node ∈ nodes) : node ∈ root.walk := by
  rw [footnoteText?] at h
  split at h
  · obtain ⟨definition, hd, rfl⟩ := Option.map_eq_some_iff.mp h
    exact Node.mem_walk_trans
      (Node.mem_walk_of_mem_members (Node.mem_members_of_children hn)) (definition?_mem hd)
  · split at h
    · cases h
    · cases h
      exact Node.mem_walk_trans
        (Node.mem_walk_of_mem_members (Node.mem_members_of_children hn)) hr
  · cases h

end Index
end OutlineWiki
