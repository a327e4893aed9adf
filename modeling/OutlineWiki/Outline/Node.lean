import OutlineWiki.Outline.Kind

/-!
Nodes of an outline tree.

A node has a kind, children, and what is affiliated with it: blank space after it, a
name and a caption. The nodes that a node owns stand in lists, in this order: the
caption, the title or tag in its kind, and the children. Every function over a whole
tree is a fold, which sees a node together with the results for the nodes it owns.
-/

namespace OutlineWiki

structure Node where
  kind : Kind Node
  children : List Node := []
  postBlank : Option UInt32 := none
  name : Option String := none
  caption : Option (List Node) := none
  id : Nat := 0

instance : Inhabited Node :=
  ⟨{ kind := .unknown }⟩

/-- What a node owns, over the type of what stands for an owned node. -/
structure Parts (α : Type) where
  kind : Kind α
  children : List α
  caption : Option (List α)

namespace Parts

variable {α β : Type}

/-- The lists of a node in document order. -/
def lists (parts : Parts α) : List (List α) :=
  parts.caption.toList ++ parts.kind.lists ++ [parts.children]

/-- All that a node owns in document order. -/
def members (parts : Parts α) : List α :=
  parts.lists.flatten

def map (f : α → β) (parts : Parts α) : Parts β :=
  ⟨parts.kind.map f, parts.children.map f, parts.caption.map (·.map f)⟩

theorem lists_map (f : α → β) (parts : Parts α) :
    (parts.map f).lists = parts.lists.map (·.map f) := by
  obtain ⟨kind, children, caption⟩ := parts
  cases caption <;> simp [lists, map, Kind.lists_map]

theorem members_map (f : α → β) (parts : Parts α) :
    (parts.map f).members = parts.members.map f := by
  simp [members, lists_map, List.map_flatten]

theorem map_congr {f g : α → β} {parts : Parts α} (h : ∀ a ∈ parts.members, f a = g a) :
    parts.map f = parts.map g := by
  obtain ⟨kind, children, caption⟩ := parts
  have hk : kind.map f = kind.map g :=
    Kind.map_congr fun list hl a ha =>
      h a (by simp only [members, lists, List.mem_flatten]; exact ⟨list, by simp [hl], ha⟩)
  have hc : children.map f = children.map g :=
    List.map_congr_left fun a ha => h a (by simp [members, lists, ha])
  cases caption with
  | none => simp [map, hk, hc]
  | some caption =>
    have hcap : caption.map f = caption.map g :=
      List.map_congr_left fun a ha => h a (by simp [members, lists, ha])
    simp [map, hk, hc, hcap]

end Parts

namespace Node

def parts (node : Node) : Parts Node :=
  ⟨node.kind, node.children, node.caption⟩

/-- The node with other owned nodes. -/
def withParts (node : Node) (parts : Parts Node) : Node :=
  { node with kind := parts.kind, children := parts.children, caption := parts.caption }

/-- The lists of nodes that a node owns, in document order. -/
def lists (node : Node) : List (List Node) :=
  node.parts.lists

/-- The nodes that a node owns, in document order. -/
def members (node : Node) : List Node :=
  node.parts.members

section Fold

variable {α : Type} (step : Node → Parts α → α)

mutual

/-- The result for a node, found from the node and the results for all it owns. -/
def fold : Node → α
  | ⟨kind, children, postBlank, name, caption, id⟩ =>
    step ⟨kind, children, postBlank, name, caption, id⟩
      ⟨match kind with
        | .headline info title => .headline info (foldList title)
        | .listItem checkbox (some tag) => .listItem checkbox (some (foldList tag))
        | kind => kind.bare,
      foldList children,
      match caption with
        | none => none
        | some caption => some (foldList caption)⟩
termination_by structural node => node

def foldList : List Node → List α
  | [] => []
  | node :: nodes => fold node :: foldList nodes
termination_by structural nodes => nodes

end

theorem foldList_eq_map (nodes : List Node) : foldList step nodes = nodes.map (fold step) := by
  induction nodes with
  | nil => rfl
  | cons node nodes ih => rw [foldList, ih, List.map_cons]

/-- A fold takes its step at the node over the folds of all that the node owns. -/
theorem fold_eq (node : Node) : fold step node = step node (node.parts.map (fold step)) := by
  obtain ⟨kind, children, postBlank, name, caption, id⟩ := node
  rw [fold.eq_def]
  simp only [parts, Parts.map, foldList_eq_map]
  congr 2
  · cases kind with
    | listItem checkbox tag => cases tag <;> rfl
    | _ => rfl
  · cases caption <;> rfl

end Fold

theorem sizeOf_lt_of_mem_members {member node : Node} (h : member ∈ node.members) :
    sizeOf member < sizeOf node := by
  obtain ⟨kind, children, postBlank, name, caption, id⟩ := node
  simp only [members, Parts.members, Parts.lists, parts, List.mem_flatten, List.mem_append,
    Option.mem_toList, List.mem_singleton] at h
  obtain ⟨list, hl, hm⟩ := h
  have hs := List.sizeOf_lt_of_mem hm
  rcases hl with (rfl | hk) | rfl
  · simp only [mk.sizeOf_spec, Option.some.sizeOf_spec]
    omega
  · have : sizeOf list < sizeOf kind := by
      cases kind with
      | headline info title =>
        simp only [Kind.lists, List.mem_singleton] at hk
        subst hk
        simp only [Kind.headline.sizeOf_spec]
        omega
      | listItem checkbox tag =>
        cases tag with
        | none => simp [Kind.lists] at hk
        | some tag =>
          simp only [Kind.lists, List.mem_singleton] at hk
          subst hk
          simp only [Kind.listItem.sizeOf_spec, Option.some.sizeOf_spec]
          omega
      | _ => simp [Kind.lists] at hk
    simp only [mk.sizeOf_spec]
    omega
  · simp only [mk.sizeOf_spec]
    omega

/-- What holds of a node whenever it holds of all that the node owns holds of every node. -/
theorem member_induction {P : Node → Prop}
    (step : ∀ node, (∀ member ∈ node.members, P member) → P node) (node : Node) : P node :=
  step node fun member _ => member_induction step member
termination_by sizeOf node
decreasing_by exact sizeOf_lt_of_mem_members ‹_›

/-- The node and all below it in document order: caption, title or tag, then children. -/
def walk : Node → List Node :=
  fold fun node parts => node :: parts.members.flatten

/-- Applies a change to every node of a tree, to owned nodes before their owner. -/
def transform (change : Node → Node) : Node → Node :=
  fold fun node parts => change (node.withParts parts)

/-- The blank space after a node that runs on within a line. -/
def trailingSpaces (node : Node) : List Char :=
  if node.kind.isBlock then [] else List.replicate (node.postBlank.getD 0).toNat ' '

/-- The text of a node: titles and children, but neither tags nor captions. -/
def plainText : Node → List Char :=
  fold fun node parts =>
    node.kind.ownText ++ parts.kind.title.flatten ++ parts.children.flatten ++
      node.trailingSpaces

/-- The text of a list of nodes. -/
def plainTexts (nodes : List Node) : List Char :=
  nodes.flatMap plainText

theorem walk_eq (node : Node) : node.walk = node :: node.members.flatMap walk := by
  rw [walk, fold_eq, Parts.members_map, List.flatMap_def]
  rfl

theorem transform_eq (change : Node → Node) (node : Node) :
    node.transform change = change (node.withParts (node.parts.map (transform change))) := by
  rw [transform, fold_eq]

theorem plainText_eq (node : Node) :
    node.plainText = node.kind.ownText ++ plainTexts node.kind.title ++
      plainTexts node.children ++ node.trailingSpaces := by
  rw [plainText, fold_eq]
  simp only [Parts.map, parts, Kind.title_map, plainTexts, List.flatMap_def]
  rfl

end Node

end OutlineWiki
