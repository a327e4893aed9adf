import OutlineWiki.Export
import OutlineWiki.Proofs.Outline.Places
import OutlineWiki.Proofs.Outline.Renaming

/-!
Preparing a tree again.

The blank space after a node is changed without a look at any other node, and the numbers of
a tree are given without a look at those it had. So a second preparation finds nothing left
to do, and an export that prepares its tree in place can be repeated.
-/

namespace OutlineWiki
namespace Node

/-- A change of a node that goes along with any change of what the node owns. -/
structure Uniform (change : Node → Node) : Prop where
  members : ∀ node, (change node).members = node.members
  withParts : ∀ (f : Node → Node) (node : Node),
    change (node.withParts (node.parts.map f)) =
      (change node).withParts ((change node).parts.map f)

section Uniform

variable {change : Node → Node} (h : Uniform change)
include h

theorem Uniform.transform_eq (node : Node) :
    node.transform change = (change node).withParts ((change node).parts.map (transform change)) := by
  rw [Node.transform_eq, h.withParts]

/-- A transformed tree has the transformed nodes, in the same order. -/
theorem Uniform.walk_transform (node : Node) :
    (node.transform change).walk = node.walk.map (transform change) := by
  induction node using member_induction with
  | step node ih =>
      have hmembers : (node.transform change).members = node.members.map (transform change) := by
        rw [h.transform_eq, ← h.members node]
        exact Parts.members_map _ _
      rw [walk_eq, walk_eq, hmembers, List.map_cons, List.flatMap_map, List.map_flatMap]
      exact congrArg (List.cons _) (List.flatMap_congr ih)

/-- Two changes of a whole tree can be made at each node in one go. -/
theorem Uniform.transform_transform (other : Node → Node) (node : Node) :
    (node.transform change).transform other = node.transform (other ∘ change) := by
  induction node using member_induction with
  | step node ih =>
      rw [h.transform_eq, Node.transform_eq, Node.transform_eq, Function.comp_apply, h.withParts]
      change other ((change node).withParts (((change node).parts.map (transform change)).map
        (transform other))) = _
      rw [Parts.map_map]
      refine congrArg (fun parts => other ((change node).withParts parts))
        (Parts.map_congr fun member hm => ih member ?_)
      rw [← h.members node]
      exact hm

end Uniform

/-- A change of attributes of a node that neither touches nor regards what the node owns. -/
structure LeavesParts (change : Node → Node) : Prop where
  parts : ∀ node, (change node).parts = node.parts
  withParts : ∀ (f : Node → Node) (node : Node),
    change (node.withParts (node.parts.map f)) = (change node).withParts (node.parts.map f)

section Changes

variable {change other : Node → Node} (hc : LeavesParts change)
include hc

theorem LeavesParts.uniform : Uniform change :=
  ⟨fun node => congrArg Parts.members (hc.parts node),
    fun f node => by rw [hc.withParts, hc.parts]⟩

theorem LeavesParts.transform_eq (node : Node) :
    node.transform change = (change node).withParts (node.parts.map (transform change)) := by
  rw [Node.transform_eq, hc.withParts]

end Changes

/-- The tree with no blank space after its nodes. -/
def withoutSpace : Node → Node :=
  transform fun node => { node with postBlank := none }

/-- The tree with nothing left of the numbers of its nodes. -/
def withoutIds : Node → Node :=
  transform fun node => { node with id := 0 }

theorem leavesParts_space : LeavesParts fun node => { node with postBlank := none } :=
  ⟨fun _ => rfl, fun _ _ => rfl⟩

theorem leavesParts_ids : LeavesParts fun node => { node with id := 0 } :=
  ⟨fun _ => rfl, fun _ _ => rfl⟩

theorem leavesParts_spaced : LeavesParts spaced := by
  refine ⟨parts_spaced, fun f node => ?_⟩
  rw [spaced, spaced, isSpaced_withParts_map]
  split <;> rfl

theorem spaced_spaced (node : Node) : node.spaced.spaced = node.spaced := by
  cases h : node.isSpaced with
  | false =>
      have hspaced : node.spaced = node := if_neg (by simp [h])
      rw [hspaced, hspaced]
  | true =>
      have hmax : ∀ count : UInt32, max (max count 1) 1 = max count 1 := by
        intro count
        rw [← UInt32.toNat_inj, UInt32.toNat_max, UInt32.toNat_max, Nat.max_assoc, Nat.max_self]
      have hspaced : node.spaced = { node with postBlank := some (max (node.postBlank.getD 0) 1) } :=
        if_pos h
      have hagain : node.spaced.isSpaced = true := by
        rw [hspaced]
        exact h
      rw [spaced, if_pos hagain, hspaced, Option.getD_some, hmax]

/-- Separation comes in between where all nodes are changed. -/
theorem LeavesParts.transform_separateBlocks {change : Node → Node} (hc : LeavesParts change)
    (root : Node) :
    root.separateBlocks.transform change =
      (change root).withParts (root.parts.map (transform (change ∘ spaced))) := by
  rw [separateBlocks, hc.transform_eq, hc.withParts]
  change (change root).withParts ((root.parts.map (transform spaced)).map (transform change)) = _
  rw [Parts.map_map]
  exact congrArg _ (Parts.map_congr fun member _ =>
    leavesParts_spaced.uniform.transform_transform change member)

theorem separateBlocks_separateBlocks (root : Node) :
    root.separateBlocks.separateBlocks = root.separateBlocks := by
  change root.withParts ((root.parts.map (transform spaced)).map (transform spaced)) =
    root.withParts (root.parts.map (transform spaced))
  rw [Parts.map_map]
  refine congrArg root.withParts (Parts.map_congr fun member _ => ?_)
  rw [Function.comp_apply, leavesParts_spaced.uniform.transform_transform,
    show spaced ∘ spaced = spaced from funext spaced_spaced]

/-- Separation changes nothing but the blank space after nodes. -/
theorem withoutSpace_separateBlocks (root : Node) :
    root.separateBlocks.withoutSpace = root.withoutSpace := by
  have hspace : (fun node : Node => { node with postBlank := none }) ∘ spaced =
      fun node => { node with postBlank := none } := by
    funext node
    rw [Function.comp_apply, spaced]
    split <;> rfl
  rw [withoutSpace, leavesParts_space.transform_separateBlocks, hspace,
    leavesParts_space.transform_eq]

/-- The space after a node becomes that of the other one: at least one blank line after a block
that is not laid out line by line, unless there were more, and nothing else after other nodes. -/
structure Respaced (node other : Node) : Prop where
  changed : other.postBlank ≠ node.postBlank → node.kind.isBlock = true ∧ node.kind.isLine = false
  raised : node.postBlank.getD 0 ≤ other.postBlank.getD 0
  enough : node.kind.isBlock = true → node.kind.isLine = false → 1 ≤ other.postBlank.getD 0

theorem respaced_transform (node : Node) : Respaced node (node.transform spaced) := by
  have hspace : (node.transform spaced).postBlank = node.spaceAfter := by rw [transform_spaced_eq]
  have hspaced : node.isSpaced = true ↔ node.kind.isBlock = true ∧ node.kind.isLine = false := by
    rw [isSpaced, Bool.and_eq_true, Bool.not_eq_true']
  by_cases h : node.isSpaced = true
  · rw [spaceAfter, if_pos h] at hspace
    refine ⟨fun _ => hspaced.mp h, ?_, fun _ _ => ?_⟩ <;>
      rw [hspace, Option.getD_some, UInt32.le_iff_toNat_le, UInt32.toNat_max]
    · exact Nat.le_max_left _ _
    · exact Nat.le_max_right _ _
  · rw [spaceAfter, if_neg h] at hspace
    exact ⟨fun hne => absurd hspace hne, by rw [hspace]; exact UInt32.le_refl _,
      fun hblock hline => absurd (hspaced.mpr ⟨hblock, hline⟩) h⟩

/-- All nodes below the root are respaced, whichever list they stand in. -/
theorem respaced_separateBlocks (root : Node) :
    List.Forall₂ Respaced root.descendants root.separateBlocks.descendants := by
  have hmembers : root.separateBlocks.members = root.members.map (transform spaced) :=
    Parts.members_map _ _
  have hbelow : root.separateBlocks.descendants = root.descendants.map (transform spaced) := by
    rw [descendants, hmembers, List.flatMap_map, descendants, List.map_flatMap]
    exact List.flatMap_congr fun member _ => leavesParts_spaced.uniform.walk_transform member
  rw [hbelow, List.forall₂_map_right_iff, List.forall₂_same]
  exact fun node _ => respaced_transform node

section Numbers

theorem withoutIds_separateBlocks (root : Node) :
    root.separateBlocks.withoutIds = root.withoutIds.separateBlocks := by
  have hswap : (fun node : Node => { node with id := 0 }) ∘ spaced =
      spaced ∘ fun node => { node with id := 0 } := by
    funext node
    have hspaced : ({ node with id := 0 } : Node).isSpaced = node.isSpaced := rfl
    rw [Function.comp_apply, Function.comp_apply, spaced, spaced, hspaced]
    split <;> rfl
  rw [withoutIds, leavesParts_ids.transform_separateBlocks, leavesParts_ids.transform_eq, hswap]
  change _ = Node.withParts _ ((root.parts.map withoutIds).map (transform spaced))
  rw [Parts.map_map]
  exact congrArg _ (Parts.map_congr fun member _ =>
    (leavesParts_ids.uniform.transform_transform spaced member).symm)

/-- Numbers are given without regard to earlier ones. -/
theorem numberFrom_withoutIds (node : Node) : node.withoutIds.numberFrom = node.numberFrom := by
  induction node using member_induction with
  | step node ih =>
      have hparts : node.withoutIds.parts.map numberFrom = node.parts.map numberFrom := by
        rw [withoutIds, leavesParts_ids.transform_eq]
        change (node.parts.map withoutIds).map numberFrom = _
        rw [Parts.map_map]
        exact Parts.map_congr ih
      funext next
      rw [numberFrom_eq, numberFrom_eq, hparts, withoutIds, leavesParts_ids.transform_eq]
      rfl

theorem withoutIds_numberAll {nodes : List Node}
    (h : ∀ node ∈ nodes, ∀ next, (node.numberFrom next).1.withoutIds = node.withoutIds)
    (next : Nat) :
    (Kind.numberAll (nodes.map numberFrom) next).1.map withoutIds = nodes.map withoutIds := by
  induction nodes generalizing next with
  | nil => rfl
  | cons node nodes ih =>
      simp only [List.map_cons, Kind.numberAll]
      rw [h node List.mem_cons_self, ih fun other ho => h other (List.mem_cons_of_mem _ ho)]

theorem withoutIds_numberHeld {kind : Kind Node}
    (h : ∀ node ∈ kind.lists.flatten, ∀ next,
      (node.numberFrom next).1.withoutIds = node.withoutIds) (next : Nat) :
    ((kind.map numberFrom).numberHeld next).1.map withoutIds = kind.map withoutIds := by
  cases kind with
  | headline info title =>
      simp only [Kind.lists, List.flatten_cons, List.flatten_nil, List.append_nil] at h
      exact congrArg (Kind.headline info) (withoutIds_numberAll h next)
  | listItem checkbox tag =>
      cases tag with
      | none => rfl
      | some tag =>
          simp only [Kind.lists, List.flatten_cons, List.flatten_nil, List.append_nil] at h
          exact congrArg (fun tag => Kind.listItem checkbox (some tag))
            (withoutIds_numberAll h next)
  | _ => rfl

/-- Numbers are all that numbering changes. -/
theorem withoutIds_numberFrom (node : Node) (next : Nat) :
    (node.numberFrom next).1.withoutIds = node.withoutIds := by
  induction node using member_induction generalizing next with
  | step node ih =>
      rw [members_eq] at ih
      have hkind : (node.numberFrom next).1.kind.map withoutIds = node.kind.map withoutIds := by
        rw [numberFrom_kind]
        exact withoutIds_numberHeld (fun member hin => ih member
          (List.mem_append_left _ (List.mem_append_right _ hin))) _
      have hchildren : (node.numberFrom next).1.children.map withoutIds =
          node.children.map withoutIds := by
        rw [numberFrom_children]
        exact withoutIds_numberAll (fun member hin => ih member (List.mem_append_right _ hin)) _
      have hcaption : (node.numberFrom next).1.caption.map (·.map withoutIds) =
          node.caption.map (·.map withoutIds) := by
        rw [numberFrom_caption]
        cases hc : node.caption with
        | none => rfl
        | some caption =>
            rw [hc] at ih
            exact congrArg some (withoutIds_numberAll (fun member hin => ih member
              (List.mem_append_left _ (List.mem_append_left _ hin))) _)
      obtain ⟨hspace, hname, _⟩ := numberFrom_rest node next
      rw [withoutIds, leavesParts_ids.transform_eq, leavesParts_ids.transform_eq]
      exact eq_of_fields hkind hchildren hspace hname hcaption rfl

/-- Trees that differ in their numbers alone are prepared in the same way. -/
theorem prepare_eq_of_withoutIds {root other : Node} (h : other.withoutIds = root.withoutIds) :
    other.prepare = root.prepare := by
  rw [prepare, prepare, ← numberFrom_withoutIds, withoutIds_separateBlocks, h,
    ← withoutIds_separateBlocks, numberFrom_withoutIds]

theorem withoutIds_prepare (root : Node) :
    root.prepare.withoutIds = root.separateBlocks.withoutIds :=
  withoutIds_numberFrom root.separateBlocks 0

/-- Preparation leaves nothing to prepare. -/
theorem prepare_prepare (root : Node) : root.prepare.prepare = root.prepare := by
  have h : root.prepare.prepare = root.separateBlocks.prepare :=
    prepare_eq_of_withoutIds root.withoutIds_prepare
  rw [h, prepare, separateBlocks_separateBlocks, prepare]

end Numbers

section Exports

theorem wikiMarkup?_prepare (root : Node) (options : Options) :
    root.prepare.wikiMarkup? options = root.wikiMarkup? options := by
  rw [wikiMarkup?, prepare_prepare, wikiMarkup?]

/-- The first export gives the markup of the tree, and the others go on with the prepared one. -/
theorem mapM_exportHeld_cons (options : Options) (requests : List Options) (root : Node) :
    ((options :: requests).mapM exportHeld).run root =
      let rest := (requests.mapM exportHeld).run root.prepare
      (root.wikiMarkup? options :: rest.1, rest.2) := by
  rw [List.mapM_cons]
  rfl

/-- Every export of a held tree gives what the first one would have given. -/
theorem mapM_exportHeld_run (requests : List Options) (root : Node) :
    (requests.mapM exportHeld).run root =
      (requests.map root.wikiMarkup?, if requests = [] then root else root.prepare) := by
  induction requests generalizing root with
  | nil => rfl
  | cons options requests ih =>
      have hrest : requests.map root.prepare.wikiMarkup? = requests.map root.wikiMarkup? :=
        List.map_congr_left fun options _ => root.wikiMarkup?_prepare options
      rw [mapM_exportHeld_cons, ih, hrest, prepare_prepare, ite_self,
        if_neg (List.cons_ne_nil _ _), List.map_cons]

/-- Preparation finds nothing left to do in a prepared tree. It only changes blank space, and
numbers, for which earlier ones do not count. So exports that prepare their tree in place can
be repeated, with any options in any order. -/
theorem prepare_repeatable (root : Node) :
    root.prepare.prepare = root.prepare ∧
    (root.separateBlocks.withoutSpace = root.withoutSpace ∧
      root.separateBlocks.postBlank = root.postBlank ∧
      List.Forall₂ Respaced root.descendants root.separateBlocks.descendants) ∧
    (∀ other : Node, other.withoutIds = root.withoutIds → other.prepare = root.prepare) ∧
    ∀ requests : List Options, (requests.mapM exportHeld).run root =
      (requests.map root.wikiMarkup?, if requests = [] then root else root.prepare) := by
  refine ⟨root.prepare_prepare, ⟨root.withoutSpace_separateBlocks, rfl, ?_⟩, ?_, ?_⟩
  · exact respaced_separateBlocks root
  · exact fun other h => prepare_eq_of_withoutIds h
  · exact fun requests => mapM_exportHeld_run requests root

end Exports

end Node
end OutlineWiki
