import OutlineWiki.Proofs.Outline.Surfaces

/-!
Other labels and other numbers for a tree.

Labels of footnotes can be changed before or after preparation. Numbers can be changed after
it, and if those of a tree move to other numbers in a row, the tree is the one that would
have been numbered from there.
-/

namespace OutlineWiki

namespace Kind

variable {α β : Type}

theorem relabel_map (f : String → String) (g : α → β) (kind : Kind α) :
    (kind.map g).relabel f = (kind.relabel f).map g := by
  cases kind <;> rfl

theorem isLine_relabel (f : String → String) (kind : Kind α) :
    (kind.relabel f).isLine = kind.isLine := by
  cases kind <;> rfl

theorem isLine_map (f : α → β) (kind : Kind α) : (kind.map f).isLine = kind.isLine := by
  cases kind <;> rfl

theorem numberHeld_relabel (f : String → String) (kind : Kind (Nat → α × Nat)) (next : Nat) :
    (kind.relabel f).numberHeld next =
      ((kind.numberHeld next).1.relabel f, (kind.numberHeld next).2) := by
  cases kind with
  | listItem checkbox tag => cases tag <;> rfl
  | _ => rfl

end Kind

namespace Parts

variable {α β γ : Type}

theorem map_self (parts : Parts α) : (parts.map fun a => a) = parts := by
  obtain ⟨kind, children, caption⟩ := parts
  have hkind : kind.map (fun a => a) = kind := kind.map_id
  cases caption <;> simp [map, hkind]

theorem map_map (g : β → γ) (f : α → β) (parts : Parts α) :
    (parts.map f).map g = parts.map (g ∘ f) := by
  obtain ⟨kind, children, caption⟩ := parts
  cases caption <;> simp [map, Kind.map_map]

/-- The parts with another label, if they are those of a footnote. -/
def relabel (f : String → String) (parts : Parts α) : Parts α :=
  { parts with kind := parts.kind.relabel f }

theorem relabel_map (f : String → String) (g : α → β) (parts : Parts α) :
    (parts.map g).relabel f = (parts.relabel f).map g := by
  simp only [relabel, map, Kind.relabel_map]

end Parts

namespace Node

/-- Changes that agree at all nodes of a tree transform it in the same way. -/
theorem transform_congr {change other : Node → Node} {node : Node}
    (h : ∀ inner ∈ node.walk, ∀ parts, change (inner.withParts parts) =
      other (inner.withParts parts)) :
    node.transform change = node.transform other := by
  induction node using member_induction with
  | step node ih =>
      rw [transform_eq, transform_eq, h node node.mem_walk_self,
        Parts.map_congr fun member hm => ih member hm fun inner hi =>
          h inner (mem_walk_of_mem_member hi hm)]

theorem transform_self (node : Node) : node.transform (fun node => node) = node := by
  induction node using member_induction with
  | step node ih =>
      rw [transform_eq, Parts.map_congr ih, Parts.map_self]
      obtain ⟨kind, children, postBlank, name, caption, id⟩ := node
      rfl

/-- The tree with other labels of footnotes. -/
def relabel (f : String → String) : Node → Node :=
  transform fun node => { node with kind := node.kind.relabel f }

/-- The tree with other labels and other numbers. -/
def rename (f : String → String) (number : Nat → Nat) : Node → Node :=
  transform fun node => { node with kind := node.kind.relabel f, id := number node.id }

variable {f : String → String} {number : Nat → Nat}

theorem rename_eq (f : String → String) (number : Nat → Nat) (node : Node) :
    node.rename f number =
      { node.withParts (node.parts.map (rename f number)) with
        kind := (node.kind.map (rename f number)).relabel f
        id := number node.id } := by
  rw [rename, transform_eq]
  rfl

theorem relabel_self (node : Node) : node.relabel (fun label => label) = node := by
  have hchange : (fun node : Node => { node with kind := node.kind.relabel fun label => label }) =
      fun node => node := by
    funext node
    obtain ⟨kind, children, postBlank, name, caption, id⟩ := node
    rw [Kind.relabel_self]
  rw [relabel, hchange, transform_self]

theorem copied_rename (f : String → String) (number : Nat → Nat) (node : Node) :
    Copied f (rename f number) node := by
  constructor <;> rw [rename_eq] <;> rfl

theorem faithful_rename (f : String → String) (number : Nat → Nat) (node : Node) :
    Faithful f (rename f number) node := by
  refine fun inner _ => ⟨copied_rename f number inner, ?_⟩
  rw [rename_eq]
  rfl

theorem faithful_relabel (f : String → String) (node : Node) : Faithful f (relabel f) node :=
  faithful_rename f (fun number => number) node

theorem total_relabel (f : String → String) (nodes : List Node) :
    total (nodes.map (relabel f)) = total nodes := by
  rw [total, total, List.flatMap_map, List.length_flatMap, List.length_flatMap]
  refine congrArg List.sum (List.map_congr_left fun node _ => ?_)
  rw [(faithful_relabel f node).walk, List.length_map]

section Numbers

/-- The numbers in a row from the first one move to those from the second one. -/
def Shifts (number : Nat → Nat) (first second count : Nat) : Prop :=
  ∀ i < count, number (first + i) = second + i

theorem Shifts.left {first second count more : Nat}
    (h : Shifts number first second (count + more)) :
    Shifts number first second count :=
  fun i hi => h i (by omega)

theorem Shifts.right {first second count more : Nat}
    (h : Shifts number first second (count + more)) :
    Shifts number (first + count) (second + count) more := by
  intro i hi
  rw [Nat.add_assoc, Nat.add_assoc]
  exact h (count + i) (by omega)

theorem snd_numberFrom (node : Node) (next : Nat) :
    (node.numberFrom next).2 = next + total [node] :=
  (consecutive_numberFrom node next).next_eq

theorem snd_numberAll (nodes : List Node) (next : Nat) :
    (Kind.numberAll (nodes.map numberFrom) next).2 = next + total nodes :=
  (consecutive_numberAll (fun node _ => consecutive_numberFrom node) next).next_eq

theorem snd_numberHeld (kind : Kind Node) (next : Nat) :
    ((kind.map numberFrom).numberHeld next).2 = next + total kind.lists.flatten :=
  (consecutive_numberHeld (fun _ _ node _ => consecutive_numberFrom node) next).next_eq

/-- The node is renamed to the one with other labels that is numbered from elsewhere. -/
def RenamedFrom (f : String → String) (number : Nat → Nat) (node : Node) : Prop :=
  ∀ {first second}, Shifts number first second (total [node]) →
    (node.numberFrom first).1.rename f number = ((node.relabel f).numberFrom second).1

theorem rename_numberAll {nodes : List Node} (h : ∀ node ∈ nodes, RenamedFrom f number node)
    {first second : Nat} (hm : Shifts number first second (total nodes)) :
    (Kind.numberAll (nodes.map numberFrom) first).1.map (rename f number) =
      (Kind.numberAll ((nodes.map (relabel f)).map numberFrom) second).1 := by
  induction nodes generalizing first second with
  | nil => rfl
  | cons node nodes ih =>
      rw [show total (node :: nodes) = total [node] + total nodes from total_append [node] nodes]
        at hm
      have hfirst := h node List.mem_cons_self hm.left
      have hrest := ih (fun other ho => h other (List.mem_cons_of_mem _ ho)) hm.right
      simp only [List.map_cons, Kind.numberAll, snd_numberFrom]
      rw [hfirst, hrest, show total [node.relabel f] = total [node] from total_relabel f [node]]

theorem rename_numberHeld {kind : Kind Node}
    (h : ∀ node ∈ kind.lists.flatten, RenamedFrom f number node) {first second : Nat}
    (hm : Shifts number first second (total kind.lists.flatten)) :
    ((kind.map numberFrom).numberHeld first).1.map (rename f number) =
      (((kind.map (relabel f)).map numberFrom).numberHeld second).1 := by
  cases kind with
  | headline info title =>
      simp only [Kind.lists, List.flatten_cons, List.flatten_nil, List.append_nil] at h hm
      exact congrArg (Kind.headline info) (rename_numberAll h hm)
  | listItem checkbox tag =>
      cases tag with
      | none => rfl
      | some tag =>
          simp only [Kind.lists, List.flatten_cons, List.flatten_nil, List.append_nil] at h hm
          exact congrArg (fun tag => Kind.listItem checkbox (some tag)) (rename_numberAll h hm)
  | _ => rfl

/-- The numbers of what a node owns besides its children do not depend on the children. -/
def childStart (node : Node) (next : Nat) : Nat :=
  next + 1 + total (node.caption.getD []) + total node.kind.lists.flatten

theorem numberFrom_caption (node : Node) (next : Nat) :
    (node.numberFrom next).1.caption =
      node.caption.map fun caption => (Kind.numberAll (caption.map numberFrom) (next + 1)).1 := by
  rw [numberFrom_eq]
  obtain ⟨kind, children, postBlank, name, caption, id⟩ := node
  cases caption <;> rfl

theorem numberFrom_kind (node : Node) (next : Nat) :
    (node.numberFrom next).1.kind =
      ((node.kind.map numberFrom).numberHeld (next + 1 + total (node.caption.getD []))).1 := by
  rw [numberFrom_eq]
  obtain ⟨kind, children, postBlank, name, caption, id⟩ := node
  cases caption with
  | none => rfl
  | some caption =>
      simp only [Option.getD_some, ← snd_numberAll]
      rfl

theorem numberFrom_children (node : Node) (next : Nat) :
    (node.numberFrom next).1.children =
      (Kind.numberAll (node.children.map numberFrom) (node.childStart next)).1 := by
  rw [numberFrom_eq, childStart]
  obtain ⟨kind, children, postBlank, name, caption, id⟩ := node
  cases caption with
  | none =>
      rw [← snd_numberHeld]
      rfl
  | some caption =>
      rw [← snd_numberHeld, Option.getD_some, ← snd_numberAll]
      rfl

theorem numberFrom_rest (node : Node) (next : Nat) :
    (node.numberFrom next).1.postBlank = node.postBlank ∧
      (node.numberFrom next).1.name = node.name ∧ (node.numberFrom next).1.id = next := by
  rw [numberFrom_eq]
  exact ⟨rfl, rfl, rfl⟩

theorem total_node (node : Node) :
    total [node] = 1 + total (node.caption.getD []) + total node.kind.lists.flatten +
      total node.children := by
  have hwalk : total [node] = total node.members + 1 := by
    simp only [total, List.flatMap_cons, List.flatMap_nil, List.append_nil, walk_eq node,
      List.length_cons]
  rw [hwalk, members_eq, total_append, total_append]
  omega

theorem captionNodes_relabel (f : String → String) (node : Node) :
    (node.relabel f).caption.getD [] = (node.caption.getD []).map (relabel f) := by
  rw [(faithful_relabel f node).copied.caption]
  cases node.caption <;> rfl

theorem childStart_relabel (f : String → String) (node : Node) (next : Nat) :
    (node.relabel f).childStart next = node.childStart next := by
  rw [childStart, childStart, captionNodes_relabel, (faithful_relabel f node).copied.kind,
    Kind.lists_relabel, Kind.lists_map, ← List.map_flatten, total_relabel, total_relabel]

theorem eq_of_fields {node other : Node} (kind : node.kind = other.kind)
    (children : node.children = other.children) (postBlank : node.postBlank = other.postBlank)
    (name : node.name = other.name) (caption : node.caption = other.caption)
    (id : node.id = other.id) : node = other := by
  obtain ⟨_, _, _, _, _, _⟩ := node
  obtain ⟨_, _, _, _, _, _⟩ := other
  cases kind
  cases children
  cases postBlank
  cases name
  cases caption
  cases id
  rfl

/-- Numbers that move in a row are those of the tree numbered from elsewhere. -/
theorem rename_numberFrom (f : String → String) (number : Nat → Nat) (node : Node) :
    RenamedFrom f number node := by
  induction node using member_induction with
  | step node ih =>
      intro first second hm
      rw [total_node] at hm
      rw [members_eq] at ih
      have hcopied := (faithful_relabel f node).copied
      have hcaption : (node.numberFrom first).1.caption.map (·.map (rename f number)) =
          ((node.relabel f).numberFrom second).1.caption := by
        rw [numberFrom_caption, numberFrom_caption, hcopied.caption]
        cases hc : node.caption with
        | none => rfl
        | some caption =>
            rw [hc] at ih hm
            exact congrArg some (rename_numberAll (fun member hin => ih member
              (List.mem_append_left _ (List.mem_append_left _ hin))) hm.left.left.right)
      have hkind : ((node.numberFrom first).1.kind.map (rename f number)).relabel f =
          ((node.relabel f).numberFrom second).1.kind := by
        have hmoves : Shifts number (first + 1 + total (node.caption.getD []))
            (second + 1 + total (node.caption.getD [])) (total node.kind.lists.flatten) := by
          simpa only [Nat.add_assoc] using hm.left.right
        rw [numberFrom_kind, numberFrom_kind, captionNodes_relabel, total_relabel, hcopied.kind,
          ← Kind.relabel_map, Kind.numberHeld_relabel,
          rename_numberHeld (fun member hin => ih member
            (List.mem_append_left _ (List.mem_append_right _ hin))) hmoves]
      have hchildren : (node.numberFrom first).1.children.map (rename f number) =
          ((node.relabel f).numberFrom second).1.children := by
        have hmoves : Shifts number (node.childStart first) (node.childStart second)
            (total node.children) := by
          simpa only [childStart, Nat.add_assoc] using hm.right
        rw [numberFrom_children, numberFrom_children, childStart_relabel,
          (faithful_relabel f node).children]
        exact rename_numberAll (fun member hin => ih member (List.mem_append_right _ hin)) hmoves
      obtain ⟨hspace, hname, hid⟩ := numberFrom_rest node first
      obtain ⟨hspaces, hnames, hids⟩ := numberFrom_rest (node.relabel f) second
      rw [rename_eq]
      refine eq_of_fields hkind hchildren ?_ ?_ hcaption ?_
      · exact hspace.trans (hcopied.postBlank.symm.trans hspaces.symm)
      · exact hname.trans (hcopied.name.symm.trans hnames.symm)
      · have hzero := hm 0 (by omega)
        simpa only [Nat.add_zero, hid, hids] using hzero

end Numbers

theorem isSpaced_of_kind {node other : Node} (hb : node.kind.isBlock = other.kind.isBlock)
    (hl : node.kind.isLine = other.kind.isLine) : node.isSpaced = other.isSpaced := by
  rw [isSpaced, isSpaced, hb, hl]

theorem isSpaced_withParts_map (f : Node → Node) (node : Node) :
    (node.withParts (node.parts.map f)).isSpaced = node.isSpaced :=
  isSpaced_of_kind (Kind.isBlock_map _ _) (Kind.isLine_map _ _)

/-- The blank space after a node in a tree whose blocks are separated. -/
def spaceAfter (node : Node) : Option UInt32 :=
  if node.isSpaced then some (max (node.postBlank.getD 0) 1) else node.postBlank

theorem transform_spaced_eq (node : Node) :
    node.transform spaced =
      { node.withParts (node.parts.map (transform spaced)) with postBlank := node.spaceAfter } := by
  rw [transform_eq, spaced, isSpaced_withParts_map, spaceAfter]
  split <;> rfl

theorem relabel_eq (f : String → String) (node : Node) :
    node.relabel f = node.withParts ((node.parts.map (relabel f)).relabel f) :=
  transform_eq _ node

/-- Labels and blank space of the nodes that a node owns are changed independently. -/
theorem parts_relabel_spaced {f : String → String} {node : Node}
    (h : ∀ member ∈ node.members,
      (member.relabel f).transform spaced = (member.transform spaced).relabel f) :
    (node.relabel f).parts.map (transform spaced) =
      ((node.parts.map (transform spaced)).map (relabel f)).relabel f := by
  rw [relabel_eq]
  change ((node.parts.map (relabel f)).relabel f).map (transform spaced) = _
  rw [← Parts.relabel_map, Parts.map_map, Parts.map_map]
  exact congrArg (Parts.relabel f) (Parts.map_congr h)

theorem transform_spaced_relabel (f : String → String) (node : Node) :
    (node.relabel f).transform spaced = (node.transform spaced).relabel f := by
  induction node using member_induction with
  | step node ih =>
      have hcopied := (faithful_relabel f node).copied
      have hspaced : (node.relabel f).isSpaced = node.isSpaced :=
        isSpaced_of_kind hcopied.isBlock
          (by rw [hcopied.kind, Kind.isLine_relabel, Kind.isLine_map])
      have hspace : (node.relabel f).spaceAfter = node.spaceAfter := by
        rw [spaceAfter, spaceAfter, hcopied.postBlank, hspaced]
      rw [transform_spaced_eq, transform_spaced_eq, parts_relabel_spaced ih, hspace, relabel_eq,
        relabel_eq]
      rfl

/-- Labels may be changed before preparation or after it. -/
theorem prepare_relabel (f : String → String) (root : Node) :
    (root.relabel f).prepare = root.prepare.relabel f := by
  have hseparate : (root.relabel f).separateBlocks = root.separateBlocks.relabel f := by
    rw [separateBlocks, parts_relabel_spaced fun member _ => transform_spaced_relabel f member,
      separateBlocks, relabel_eq, relabel_eq]
    rfl
  rw [prepare, prepare, hseparate]
  exact (rename_numberFrom f (fun number => number) root.separateBlocks fun _ _ => rfl).symm

end Node
end OutlineWiki
