import OutlineWiki.Proofs.Outline.Numbering
import OutlineWiki.Proofs.Outline.References

/-!
Where the nodes of a tree stand.

The places of a tree are what one gets on the way down from the root, by stepping from a
node to one that it owns. In a prepared tree no node stands in two places, so a way down to
a node tells everything about its place. The nodes above a place are the owners on the way.
-/

namespace OutlineWiki

/-- The place of a node in a list of the node at a place. -/
def Place.inside (place : Place) (before : List Node) (node : Node) : Place :=
  ⟨node, place.node :: place.above, before.length, before.getLast?⟩

/-- Steps from a place to one of a node that the node there owns. -/
inductive Place.Leads (start : Place) : Place → Prop where
  | refl : Leads start start
  | step {place : Place} {before after : List Node} {node : Node} (h : Leads start place)
      (mem : before ++ node :: after ∈ place.node.lists) : Leads start (place.inside before node)

theorem Place.Leads.trans {start place last : Place} (h : start.Leads place)
    (hl : place.Leads last) : start.Leads last := by
  induction hl with
  | refl => exact h
  | step _ mem ih => exact .step ih mem

namespace Node

/-- The nodes below a node, at any depth. -/
def descendants (node : Node) : List Node :=
  node.members.flatMap walk

theorem walk_eq_cons_descendants (node : Node) : node.walk = node :: node.descendants :=
  walk_eq node

theorem mem_walk_iff {inner node : Node} :
    inner ∈ node.walk ↔ inner = node ∨ inner ∈ node.descendants := by
  rw [walk_eq_cons_descendants, List.mem_cons]

/-- A node lies below another one when it is owned by this one or by a node below. -/
theorem mem_descendants_iff {inner node : Node} :
    inner ∈ node.descendants ↔ ∃ owner ∈ node.walk, inner ∈ owner.members := by
  induction node using member_induction with
  | step node ih =>
      constructor
      · intro h
        obtain ⟨member, hm, hin⟩ := List.mem_flatMap.mp h
        obtain rfl | hbelow := mem_walk_iff.mp hin
        · exact ⟨node, node.mem_walk_self, hm⟩
        · obtain ⟨owner, howner, hinner⟩ := (ih member hm).mp hbelow
          exact ⟨owner, mem_walk_of_mem_member howner hm, hinner⟩
      · rintro ⟨owner, howner, hinner⟩
        obtain rfl | hbelow := mem_walk_iff.mp howner
        · exact List.mem_flatMap.mpr ⟨inner, hinner, inner.mem_walk_self⟩
        · obtain ⟨member, hm, hin⟩ := List.mem_flatMap.mp hbelow
          exact List.mem_flatMap.mpr
            ⟨member, hm, mem_walk_iff.mpr (.inr ((ih member hm).mpr ⟨owner, hin, hinner⟩))⟩

theorem mem_placesIn_iff {above nodes : List Node} {position : Nat} {previous : Option Node}
    {place : Place} :
    place ∈ placesIn above position previous nodes ↔
      ∃ before node after, nodes = before ++ node :: after ∧
        place ∈ placesAt above (position + before.length) (before.getLast?.or previous) node := by
  induction nodes generalizing position previous with
  | nil => simp [placesIn]
  | cons first nodes ih =>
      rw [placesIn, List.mem_append, ih]
      constructor
      · rintro (h | ⟨before, node, after, rfl, h⟩)
        · exact ⟨[], first, nodes, rfl, h⟩
        · refine ⟨first :: before, node, after, rfl, ?_⟩
          have hlast : (first :: before).getLast?.or previous =
              before.getLast?.or (some first) := by
            rw [List.getLast?_cons, Option.some_or, Option.or_some]
          rw [hlast, List.length_cons, Nat.add_comm before.length, ← Nat.add_assoc]
          exact h
      · rintro ⟨before, node, after, heq, h⟩
        cases before with
        | nil =>
            cases heq
            exact .inl h
        | cons other before =>
            cases heq
            refine .inr ⟨before, node, after, rfl, ?_⟩
            rw [List.length_cons, Nat.add_comm before.length, ← Nat.add_assoc,
              List.getLast?_cons, Option.some_or] at h
            rw [Option.or_some]
            exact h

theorem mem_placesAt_trans {place middle : Place} {node : Node} {above : List Node}
    {position : Nat} {previous : Option Node}
    (hm : middle ∈ placesAt above position previous node)
    (h : place ∈ placesAt middle.above middle.position middle.previous middle.node) :
    place ∈ placesAt above position previous node := by
  induction node using member_induction generalizing above position previous with
  | step node ih =>
      rw [placesAt_eq, List.mem_cons, List.mem_flatMap] at hm
      obtain rfl | ⟨list, hl, hin⟩ := hm
      · exact h
      · obtain ⟨before, member, after, rfl, hat⟩ := mem_placesIn_iff.mp hin
        have hmember : member ∈ node.members := mem_members_iff.mpr ⟨_, hl, by simp⟩
        rw [placesAt_eq, List.mem_cons, List.mem_flatMap]
        exact .inr ⟨_, hl, mem_placesIn_iff.mpr ⟨before, member, after, rfl, ih member hmember hat⟩⟩

/-- The places of a node and of all below it are those that its own place leads to. -/
theorem mem_placesAt_iff {start place : Place} :
    place ∈ placesAt start.above start.position start.previous start.node ↔
      start.Leads place := by
  constructor
  · intro h
    obtain ⟨node, above, position, previous⟩ := start
    induction node using member_induction generalizing above position previous with
    | step node ih =>
        rw [placesAt_eq, List.mem_cons, List.mem_flatMap] at h
        obtain rfl | ⟨list, hl, hin⟩ := h
        · exact .refl
        · obtain ⟨before, member, after, rfl, hat⟩ := mem_placesIn_iff.mp hin
          rw [Nat.zero_add, Option.or_none] at hat
          have hstep : (⟨node, above, position, previous⟩ : Place).Leads
              ⟨member, node :: above, before.length, before.getLast?⟩ := .step .refl hl
          exact hstep.trans (ih member (mem_members_iff.mpr ⟨_, hl, by simp⟩) _ _ _ hat)
  · intro h
    induction h with
    | refl =>
        rw [placesAt_eq]
        exact List.mem_cons_self
    | @step place before after node _ mem ih =>
        refine mem_placesAt_trans ih ?_
        rw [placesAt_eq, List.mem_cons, List.mem_flatMap]
        refine .inr ⟨_, mem, mem_placesIn_iff.mpr ⟨before, node, after, rfl, ?_⟩⟩
        rw [Nat.zero_add, Option.or_none, placesAt_eq]
        exact List.mem_cons_self

end Node

/-- The place of the root of a tree. -/
def Place.ofRoot (tree : Node) : Place :=
  ⟨tree, [], 0, none⟩

namespace Place

variable {tree : Node} {place : Place}

theorem Leads.node_mem (h : (ofRoot tree).Leads place) : place.node ∈ tree.walk := by
  rw [← Node.map_placesAt tree [] 0 none]
  exact List.mem_map_of_mem (Node.mem_placesAt_iff.mpr h)

theorem exists_of_mem_walk {node : Node} (h : node ∈ tree.walk) :
    ∃ place, (ofRoot tree).Leads place ∧ place.node = node := by
  rw [← Node.map_placesAt tree [] 0 none] at h
  obtain ⟨place, hplace, hnode⟩ := List.mem_map.mp h
  exact ⟨place, Node.mem_placesAt_iff.mp hplace, hnode⟩

/-- All nodes above a place have the node there below them. -/
theorem Leads.mem_descendants (h : (ofRoot tree).Leads place) {upper : Node}
    (hu : upper ∈ place.above) : upper ∈ tree.walk ∧ place.node ∈ upper.descendants := by
  induction h with
  | refl => cases hu
  | @step place before after node hplace mem ih =>
      have hmember : node ∈ place.node.members := Node.mem_members_iff.mpr ⟨_, mem, by simp⟩
      obtain rfl | hup := List.mem_cons.mp hu
      · exact ⟨hplace.node_mem, Node.mem_descendants_iff.mpr ⟨_, Node.mem_walk_self _, hmember⟩⟩
      · obtain ⟨htree, hbelow⟩ := ih hup
        exact ⟨htree, Node.mem_descendants_iff.mpr
          ⟨place.node, Node.mem_walk_iff.mpr (.inr hbelow), hmember⟩⟩

/-- The nodes above a place stand in order, the lowest first. -/
theorem Leads.above_pairwise (h : (ofRoot tree).Leads place) :
    place.above.Pairwise fun lower upper => lower ∈ upper.descendants := by
  induction h with
  | refl => exact .nil
  | step hplace _ ih => exact .cons (fun upper hu => (hplace.mem_descendants hu).2) ih

end Place
end OutlineWiki
