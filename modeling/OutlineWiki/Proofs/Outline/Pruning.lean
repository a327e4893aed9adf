import OutlineWiki.Proofs.Outline.Surfaces

/-!
Trees without what is dropped.

Comments, nodes of unknown kinds and sections of footnotes have no markup, and neither has
anything that they own. A tree can be pruned of them. Its walk is left with the nodes that
stand in none of them.
-/

namespace OutlineWiki

namespace Kind

variable {α β : Type}

/-- Whether nodes of the kind are dropped, with all that they own. -/
def isDropped : Kind α → Bool
  | comment | unknown => true
  | headline info _ => info.footnoteSection
  | _ => false

/-- The kind with some of the nodes that it holds. -/
def filter (keeps : α → Bool) : Kind α → Kind α
  | headline info title => headline info (title.filter keeps)
  | listItem checkbox tag => listItem checkbox (tag.map (·.filter keeps))
  | kind => kind

theorem isDropped_bare (kind : Kind α) : (kind.bare : Kind β).isDropped = kind.isDropped := by
  cases kind <;> rfl

theorem bare_filter (keeps : α → Bool) (kind : Kind α) :
    ((kind.filter keeps).bare : Kind β) = kind.bare := by
  cases kind with
  | listItem checkbox tag => cases tag <;> rfl
  | _ => rfl

theorem lists_filter (keeps : α → Bool) (kind : Kind α) :
    (kind.filter keeps).lists = kind.lists.map (·.filter keeps) := by
  cases kind with
  | listItem checkbox tag => cases tag <;> rfl
  | _ => rfl

end Kind

namespace Parts

variable {α : Type}

/-- Some of what a node owns. -/
def filter (keeps : α → Bool) (parts : Parts α) : Parts α :=
  ⟨parts.kind.filter keeps, parts.children.filter keeps, parts.caption.map (·.filter keeps)⟩

theorem members_filter (keeps : α → Bool) (parts : Parts α) :
    (parts.filter keeps).members = parts.members.filter keeps := by
  obtain ⟨kind, children, caption⟩ := parts
  cases caption <;>
    simp [members, lists, filter, Kind.lists_filter, List.filter_flatten, List.filter_append]

end Parts

/-- The entries without a mark. -/
def unmarked {α : Type} (entries : List (α × Bool)) : List α :=
  (entries.filter fun entry => !entry.2).map (·.1)

section Unmarked

variable {α : Type} (entries others : List (α × Bool)) (a : α)

theorem unmarked_cons_false : unmarked ((a, false) :: entries) = a :: unmarked entries :=
  rfl

theorem unmarked_cons_true : unmarked ((a, true) :: entries) = unmarked entries :=
  rfl

theorem unmarked_append : unmarked (entries ++ others) = unmarked entries ++ unmarked others := by
  rw [unmarked, List.filter_append, List.map_append]
  rfl

theorem unmarked_flatMap {β : Type} (f : β → List (α × Bool)) (items : List β) :
    unmarked (items.flatMap f) = items.flatMap fun item => unmarked (f item) := by
  induction items with
  | nil => rfl
  | cons item items ih => rw [List.flatMap_cons, unmarked_append, ih, List.flatMap_cons]

end Unmarked

namespace Node

/-- The nodes of a walk with marks on those that are dropped, or stand in one that is. -/
def marked : Node → Bool → List (Node × Bool) :=
  fold fun node parts inDropped =>
    let dropped := inDropped || node.kind.isDropped
    (node, dropped) :: parts.members.flatMap fun marked => marked dropped

theorem marked_eq (node : Node) (inDropped : Bool) :
    node.marked inDropped = (node, inDropped || node.kind.isDropped) ::
      node.members.flatMap fun member => member.marked (inDropped || node.kind.isDropped) := by
  rw [marked, fold_eq, Parts.members_map]
  exact congrArg (List.cons _) (List.flatMap_map _ _ _)

theorem map_fst_marked (node : Node) (inDropped : Bool) :
    (node.marked inDropped).map (·.1) = node.walk := by
  induction node using member_induction generalizing inDropped with
  | step node ih =>
      rw [marked_eq, walk_eq, List.map_cons, List.map_flatMap]
      exact congrArg (List.cons node) (List.flatMap_congr fun member hm => ih member hm _)

/-- Nothing in a dropped node is without a mark. -/
theorem unmarked_marked_of_dropped {node : Node} {inDropped : Bool}
    (h : (inDropped || node.kind.isDropped) = true) : unmarked (node.marked inDropped) = [] := by
  induction node using member_induction generalizing inDropped with
  | step node ih =>
      rw [marked_eq, h, unmarked_cons_true, unmarked_flatMap]
      exact List.flatMap_eq_nil_iff.mpr fun member hm => ih member hm rfl

/-- The tree without the dropped nodes below its root. -/
def pruned : Node → Node :=
  transform fun node => node.withParts (node.parts.filter fun member => !member.kind.isDropped)

theorem pruned_eq (node : Node) :
    node.pruned =
      node.withParts ((node.parts.map pruned).filter fun member => !member.kind.isDropped) :=
  transform_eq _ node

theorem surface_kind_pruned (node : Node) : node.pruned.surface.kind = node.surface.kind := by
  rw [pruned_eq]
  exact (Kind.bare_filter _ _).trans (Kind.bare_map _ _)

theorem isDropped_pruned (node : Node) : node.pruned.kind.isDropped = node.kind.isDropped := by
  have h := congrArg Kind.isDropped node.surface_kind_pruned
  rwa [surface, surface, Kind.isDropped_bare, Kind.isDropped_bare] at h

theorem members_pruned (node : Node) :
    node.pruned.members = (node.members.filter fun member => !member.kind.isDropped).map pruned := by
  have hmembers : node.pruned.members =
      (node.members.map pruned).filter fun member => !member.kind.isDropped := by
    rw [pruned_eq]
    exact (Parts.members_filter _ _).trans (by rw [Parts.members_map]; rfl)
  rw [hmembers, List.filter_map]
  refine congrArg (List.map pruned) (List.filter_congr fun member _ => ?_)
  rw [Function.comp_apply, isDropped_pruned]

/-- The walk of a pruned tree goes through the nodes that are not marked. -/
theorem walk_pruned {node : Node} (h : node.kind.isDropped = false) :
    node.pruned.walk.map (·.surface.kind) =
      (unmarked (node.marked false)).map (·.surface.kind) := by
  induction node using member_induction with
  | step node ih =>
      rw [walk_eq, marked_eq, h, members_pruned, List.flatMap_map, Bool.or_false,
        unmarked_cons_false, List.map_cons, List.map_cons, surface_kind_pruned, unmarked_flatMap,
        List.map_flatMap, List.map_flatMap]
      refine congrArg (List.cons _) ?_
      generalize node.members = members at ih
      induction members with
      | nil => rfl
      | cons member members ihm =>
          have hrest := ihm fun other ho => ih other (List.mem_cons_of_mem _ ho)
          rw [List.flatMap_cons, List.filter_cons]
          cases hd : member.kind.isDropped with
          | true =>
              rw [unmarked_marked_of_dropped (by rw [hd]; rfl)]
              exact hrest
          | false =>
              rw [← hrest, ← ih member List.mem_cons_self hd]
              rfl

section Split

variable {root node : Node} {before after : List (Node × Bool)}
  (h : root.marked false = before ++ (node, false) :: after)
include h

theorem walk_of_marked : root.walk = before.map (·.1) ++ node :: after.map (·.1) := by
  rw [← root.map_fst_marked false, h, List.map_append, List.map_cons]

/-- A node without a mark stands in the pruned tree between those that have none either. -/
theorem walk_pruned_of_marked :
    root.pruned.walk.map (·.surface.kind) =
      (unmarked before ++ node :: unmarked after).map (·.surface.kind) := by
  have hunmarked : unmarked (root.marked false) = unmarked before ++ node :: unmarked after := by
    rw [h, unmarked_append, unmarked_cons_false]
  have hroot : root.kind.isDropped = false := by
    refine Bool.eq_false_iff.mpr fun hdropped => ?_
    have hnone : unmarked (root.marked false) = [] := unmarked_marked_of_dropped hdropped
    rw [hunmarked] at hnone
    exact List.cons_ne_nil _ _ (List.append_eq_nil_iff.mp hnone).2
  rw [walk_pruned hroot, hunmarked]

end Split

end Node
end OutlineWiki
