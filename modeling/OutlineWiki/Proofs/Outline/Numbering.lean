import Mathlib.Data.List.Nodup
import OutlineWiki.Outline.Prepare
import OutlineWiki.Proofs.Outline.Walk

/-!
The numbers that preparation gives to the nodes of a tree.

Nodes are numbered one after another along the walk of the tree, so the numbers grow in
document order and no two nodes share one.
-/

namespace OutlineWiki
namespace Node

/-- The numbers of the nodes of some trees in document order. -/
def ids (nodes : List Node) : List Nat :=
  (nodes.flatMap walk).map (·.id)

/-- How many nodes some trees have together. -/
def total (nodes : List Node) : Nat :=
  (nodes.flatMap walk).length

theorem ids_append (nodes more : List Node) : ids (nodes ++ more) = ids nodes ++ ids more := by
  simp only [ids, List.flatMap_append, List.map_append]

theorem total_append (nodes more : List Node) :
    total (nodes ++ more) = total nodes + total more := by
  simp only [total, List.flatMap_append, List.length_append]

/-- The renumbered nodes bear the numbers from the first on, as many as there were nodes. -/
structure Consecutive (nodes numbered : List Node) (first next : Nat) : Prop where
  ids_eq : ids numbered = List.range' first (total nodes)
  next_eq : next = first + total nodes

theorem Consecutive.nil (first : Nat) : Consecutive [] [] first first :=
  ⟨rfl, rfl⟩

theorem Consecutive.append {nodes numbered more others : List Node} {first middle next : Nat}
    (h : Consecutive nodes numbered first middle) (hm : Consecutive more others middle next) :
    Consecutive (nodes ++ more) (numbered ++ others) first next := by
  constructor
  · rw [ids_append, h.ids_eq, hm.ids_eq, h.next_eq, total_append]
    exact List.range'_append_1
  · rw [hm.next_eq, h.next_eq, total_append, Nat.add_assoc]

theorem consecutive_numberAll {nodes : List Node}
    (h : ∀ node ∈ nodes, ∀ next, Consecutive [node] [(node.numberFrom next).1] next
      (node.numberFrom next).2) (next : Nat) :
    Consecutive nodes (Kind.numberAll (nodes.map numberFrom) next).1 next
      (Kind.numberAll (nodes.map numberFrom) next).2 := by
  induction nodes generalizing next with
  | nil => exact .nil next
  | cons node nodes ih =>
      exact (h node List.mem_cons_self next).append
        (ih (fun other ho => h other (List.mem_cons_of_mem _ ho)) _)

theorem consecutive_numberHeld {kind : Kind Node}
    (h : ∀ list ∈ kind.lists, ∀ node ∈ list, ∀ next,
      Consecutive [node] [(node.numberFrom next).1] next (node.numberFrom next).2) (next : Nat) :
    Consecutive kind.lists.flatten ((kind.map numberFrom).numberHeld next).1.lists.flatten next
      ((kind.map numberFrom).numberHeld next).2 := by
  cases kind with
  | headline info title =>
      simpa [Kind.lists, Kind.map, Kind.numberHeld] using
        consecutive_numberAll (h title (by simp [Kind.lists])) next
  | listItem checkbox tag =>
      cases tag with
      | none => exact .nil next
      | some tag =>
          simpa [Kind.lists, Kind.map, Kind.numberHeld] using
            consecutive_numberAll (h tag (by simp [Kind.lists])) next
  | _ => exact .nil next

theorem consecutive_number {parts : Parts Node}
    (h : ∀ node ∈ parts.members, ∀ next,
      Consecutive [node] [(node.numberFrom next).1] next (node.numberFrom next).2) (next : Nat) :
    Consecutive parts.members ((parts.map numberFrom).number next).1.members next
      ((parts.map numberFrom).number next).2 := by
  obtain ⟨kind, children, caption⟩ := parts
  have hkind : ∀ list ∈ kind.lists, ∀ node ∈ list, ∀ next,
      Consecutive [node] [(node.numberFrom next).1] next (node.numberFrom next).2 :=
    fun list hl node hn => h node (List.mem_flatten.mpr ⟨list, by simp [Parts.lists, hl], hn⟩)
  have hchildren : ∀ next, Consecutive children
      (Kind.numberAll (children.map numberFrom) next).1 next
      (Kind.numberAll (children.map numberFrom) next).2 := consecutive_numberAll
    fun node hn => h node (List.mem_flatten.mpr ⟨children, by simp [Parts.lists], hn⟩)
  cases caption with
  | none =>
      simpa [Parts.members, Parts.lists, Parts.map, Parts.number] using
        (consecutive_numberHeld hkind next).append (hchildren _)
  | some caption =>
      have hcaption : ∀ next, Consecutive caption
          (Kind.numberAll (caption.map numberFrom) next).1 next
          (Kind.numberAll (caption.map numberFrom) next).2 := consecutive_numberAll
        fun node hn => h node (List.mem_flatten.mpr ⟨caption, by simp [Parts.lists], hn⟩)
      simpa [Parts.members, Parts.lists, Parts.map, Parts.number] using
        (hcaption next).append ((consecutive_numberHeld hkind _).append (hchildren _))

theorem consecutive_numberFrom (node : Node) (next : Nat) :
    Consecutive [node] [(node.numberFrom next).1] next (node.numberFrom next).2 := by
  induction node using member_induction generalizing next with
  | step node ih =>
      have hparts : Consecutive node.parts.members
          ((node.parts.map numberFrom).number (next + 1)).1.members (next + 1)
          ((node.parts.map numberFrom).number (next + 1)).2 := consecutive_number ih (next + 1)
      rw [numberFrom_eq]
      have htotal : total [node] = total node.parts.members + 1 := by
        simp only [total, List.flatMap_cons, List.flatMap_nil, List.append_nil, walk_eq node,
          List.length_cons, members]
      constructor
      · simp only [ids, List.flatMap_cons, List.flatMap_nil, List.append_nil]
        rw [walk_eq, List.map_cons, htotal, List.range'_succ]
        exact congrArg (List.cons next) hparts.ids_eq
      · have hnext := hparts.next_eq
        dsimp only
        omega

/-- The numbers of a prepared tree count its nodes in document order. -/
theorem ids_prepare (root : Node) :
    root.prepare.walk.map (·.id) = List.range root.prepare.walk.length := by
  have h := (consecutive_numberFrom root.separateBlocks 0).ids_eq
  simp only [ids, List.flatMap_cons, List.flatMap_nil, List.append_nil] at h
  have hl := congrArg List.length h
  rw [List.length_map, List.length_range'] at hl
  rw [prepare, h, ← hl, List.range_eq_range']

theorem ids_increase (root : Node) :
    root.prepare.walk.Pairwise fun node later => node.id < later.id := by
  have h : (root.prepare.walk.map (·.id)).Pairwise (· < ·) := by
    rw [ids_prepare]
    exact List.pairwise_lt_range
  exact List.pairwise_map.mp h

theorem eq_of_id_eq {root node other : Node} (hn : node ∈ root.prepare.walk)
    (ho : other ∈ root.prepare.walk) (h : node.id = other.id) : node = other :=
  List.inj_on_of_nodup_map (f := (·.id))
    (by rw [ids_prepare]; exact List.nodup_range) hn ho h

end Node
end OutlineWiki
