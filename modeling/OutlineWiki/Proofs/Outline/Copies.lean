import OutlineWiki.Proofs.Outline.Lookups

/-!
Copies of trees.

A function on nodes copies a tree when it takes each node to one with the same attributes and
with the copies of what the node owns. The numbers of the nodes may change, and so may labels
of footnotes. A tree may also grow on the way: frames that can be reached through the children
of frames alone may get further nodes among their children, as long as they hold blocks only.
Everything outside of these lists is copied faithfully.
-/

namespace OutlineWiki

namespace Kind

variable {α β : Type}

/-- Nodes of this kind have no markup, whatever they hold. -/
def isSilent : Kind α → Bool
  | comment | unknown | footnoteDefinition _ => true
  | _ => false

/-- Nodes of this kind show their children one after another as blocks. -/
def isFrame : Kind α → Bool
  | document | sectionBody | headline _ _ | quoteBlock | plainList _ | listItem _ _ => true
  | _ => false

/-- Blocks of text without links, and texts that are shown elsewhere or not at all. -/
def isSimple : Kind α → Bool
  | paragraph | plainText _ | bold | italic | footnoteReference _ | footnoteDefinition _
  | comment | unknown => true
  | _ => false

/-- The kind with another label, if it is one of a footnote. -/
def relabel (f : String → String) : Kind α → Kind α
  | footnoteReference label => footnoteReference (label.map f)
  | footnoteDefinition label => footnoteDefinition (f label)
  | kind => kind

theorem relabel_self (kind : Kind α) : (kind.relabel fun label => label) = kind := by
  cases kind with
  | footnoteReference label => cases label <;> rfl
  | _ => rfl

theorem lists_relabel (f : String → String) (kind : Kind α) :
    (kind.relabel f).lists = kind.lists := by
  cases kind <;> rfl

theorem title_relabel (f : String → String) (kind : Kind α) :
    (kind.relabel f).title = kind.title := by
  cases kind <;> rfl

theorem isBlock_relabel (f : String → String) (kind : Kind α) :
    (kind.relabel f).isBlock = kind.isBlock := by
  cases kind <;> rfl

theorem ownText_relabel_map (f : String → String) (g : α → β) (kind : Kind α) :
    ((kind.map g).relabel f).ownText = kind.ownText := by
  cases kind <;> rfl

end Kind

/-- A list with further elements put in between. -/
inductive Interspersed {α : Type} (extra : α → Prop) : List α → List α → Prop where
  | nil : Interspersed extra [] []
  | keep {list more : List α} (a : α) (h : Interspersed extra list more) :
      Interspersed extra (a :: list) (a :: more)
  | insert {list more : List α} {a : α} (ha : extra a) (h : Interspersed extra list more) :
      Interspersed extra list (a :: more)

namespace Interspersed

variable {α β : Type} {extra : α → Prop} {list more : List α}

theorem refl (extra : α → Prop) (list : List α) : Interspersed extra list list := by
  induction list with
  | nil => exact .nil
  | cons a list ih => exact .keep a ih

theorem append {first second : List α} (h : Interspersed extra list more)
    (hs : Interspersed extra first second) :
    Interspersed extra (list ++ first) (more ++ second) := by
  induction h with
  | nil => exact hs
  | keep a _ ih => exact .keep a ih
  | insert ha _ ih => exact .insert ha ih

theorem of_insert {a : α} (ha : extra a) (list : List α) (position : Nat) :
    Interspersed extra list (list.take position ++ a :: list.drop position) := by
  have h := (refl extra (list.take position)).append (.insert ha (refl extra (list.drop position)))
  rwa [List.take_append_drop] at h

theorem trans {last : List α} (h : Interspersed extra list more)
    (hl : Interspersed extra more last) : Interspersed extra list last := by
  induction hl generalizing list with
  | nil => exact h
  | keep a _ ih =>
      cases h with
      | keep _ h => exact .keep a (ih h)
      | insert ha h => exact .insert ha (ih h)
  | insert ha _ ih => exact .insert ha (ih h)

theorem of_forall (h : ∀ a ∈ more, extra a) : Interspersed extra [] more := by
  induction more with
  | nil => exact .nil
  | cons a more ih =>
      exact .insert (h a List.mem_cons_self) (ih fun b hb => h b (List.mem_cons_of_mem _ hb))

theorem sublist (h : Interspersed extra list more) : list.Sublist more := by
  induction h with
  | nil => exact .slnil
  | keep a _ ih => exact ih.cons_cons a
  | insert _ _ ih => exact ih.cons _

theorem mem_or (h : Interspersed extra list more) {a : α} (ha : a ∈ more) : a ∈ list ∨ extra a := by
  induction h with
  | nil => cases ha
  | keep b _ ih =>
      obtain rfl | ha := List.mem_cons.mp ha
      · exact .inl List.mem_cons_self
      · exact (ih ha).imp_left (List.mem_cons_of_mem _)
  | insert hb _ ih =>
      obtain rfl | ha := List.mem_cons.mp ha
      · exact .inr hb
      · exact ih ha

theorem flatMap_eq {f : α → List β} (h : Interspersed extra list more)
    (hf : ∀ a, extra a → f a = []) : more.flatMap f = list.flatMap f := by
  induction h with
  | nil => rfl
  | keep a _ ih => rw [List.flatMap_cons, List.flatMap_cons, ih]
  | insert ha _ ih => rw [List.flatMap_cons, hf _ ha, List.nil_append, ih]

theorem filter_eq {p : α → Bool} (h : Interspersed extra list more)
    (hp : ∀ a, extra a → p a = false) : more.filter p = list.filter p := by
  induction h with
  | nil => rfl
  | keep a _ ih => rw [List.filter_cons, List.filter_cons, ih]
  | insert ha _ ih => rw [List.filter_cons, hp _ ha, ih]; rfl

theorem find?_eq {p : α → Bool} (h : Interspersed extra list more)
    (hp : ∀ a, extra a → p a = false) : more.find? p = list.find? p := by
  rw [← List.head?_filter, ← List.head?_filter, h.filter_eq hp]

/-- What is put in between some lists stands between the elements of all of them together. -/
theorem flatMap_congr {f g : α → List β} {other : β → Prop}
    (h : ∀ a ∈ list, Interspersed other (f a) (g a)) :
    Interspersed other (list.flatMap f) (list.flatMap g) := by
  induction list with
  | nil => exact .nil
  | cons a list ih =>
      rw [List.flatMap_cons, List.flatMap_cons]
      exact (h a List.mem_cons_self).append (ih fun b hb => h b (List.mem_cons_of_mem _ hb))

theorem flatMap {f : α → List β} {other : β → Prop} (h : Interspersed extra list more)
    (hextra : ∀ a, extra a → ∀ b ∈ f a, other b) :
    Interspersed other (list.flatMap f) (more.flatMap f) := by
  induction h with
  | nil => exact .nil
  | keep a _ ih =>
      rw [List.flatMap_cons, List.flatMap_cons]
      exact (refl other (f a)).append ih
  | insert ha _ ih =>
      rw [List.flatMap_cons]
      exact (of_forall (hextra _ ha)).append ih

end Interspersed

namespace Node

section Copies

variable (f : String → String) (image : Node → Node)

/-- The image of the node has the same attributes and the images of its title, tag and caption. -/
structure Copied (node : Node) : Prop where
  kind : (image node).kind = (node.kind.map image).relabel f
  caption : (image node).caption = node.caption.map (·.map image)
  name : (image node).name = node.name
  postBlank : (image node).postBlank = node.postBlank

/-- The node and all below it are copied, and nothing is put in between. -/
def Faithful (node : Node) : Prop :=
  ∀ inner ∈ node.walk, Copied f image inner ∧ (image inner).children = inner.children.map image

/-- The tree is copied, with further nodes among the children of frames that hold blocks. -/
inductive Grown (extra : Node → Prop) : Node → Prop where
  | faithful {node : Node} (h : Faithful f image node) : Grown extra node
  | frame {node : Node} (kind : node.kind.isFrame = true) (copied : Copied f image node)
      (held : ∀ inner ∈ node.caption.getD [] ++ node.kind.lists.flatten, Faithful f image inner)
      (children : (image node).children = node.children.map image ∨
        (∀ child ∈ node.children, child.kind.isBlock = true) ∧
          Interspersed extra (node.children.map image) (image node).children)
      (below : ∀ child ∈ node.children, Grown extra child) : Grown extra node

end Copies

variable {f : String → String} {image : Node → Node} {extra : Node → Prop} {node : Node}

theorem Copied.lists (h : Copied f image node) :
    (image node).lists = (image node).caption.toList ++ (node.kind.lists.map (·.map image)) ++
      [(image node).children] := by
  rw [Node.lists, Parts.lists, parts, h.kind, Kind.lists_relabel, Kind.lists_map]

theorem Copied.held (h : Copied f image node) :
    (image node).caption.getD [] ++ (image node).kind.lists.flatten =
      (node.caption.getD [] ++ node.kind.lists.flatten).map image := by
  rw [h.kind, h.caption, Kind.lists_relabel, Kind.lists_map, List.map_append, List.map_flatten]
  cases node.caption <;> rfl

theorem Copied.isFrame (h : Copied f image node) :
    (image node).kind.isFrame = node.kind.isFrame := by
  rw [h.kind]
  cases node.kind <;> rfl

theorem Copied.isBlock (h : Copied f image node) :
    (image node).kind.isBlock = node.kind.isBlock := by
  rw [h.kind, Kind.isBlock_relabel, Kind.isBlock_map]

namespace Faithful

variable (h : Faithful f image node)
include h

theorem copied : Copied f image node :=
  (h node node.mem_walk_self).1

theorem children : (image node).children = node.children.map image :=
  (h node node.mem_walk_self).2

theorem of_mem_walk {inner : Node} (hi : inner ∈ node.walk) : Faithful f image inner :=
  fun lower hl => h lower (mem_walk_trans hl hi)

theorem of_mem_members {member : Node} (hm : member ∈ node.members) : Faithful f image member :=
  h.of_mem_walk (mem_walk_of_mem_members hm)

theorem members : (image node).members = node.members.map image := by
  rw [members_eq, h.copied.held, h.children, ← List.map_append, members_eq]

omit h in
theorem walk (h : Faithful f image node) : (image node).walk = node.walk.map image := by
  induction node using member_induction with
  | step node ih =>
      rw [walk_eq, h.members, walk_eq, List.map_cons, List.flatMap_map, List.map_flatMap]
      exact congrArg (List.cons _)
        (List.flatMap_congr fun member hm => ih member hm (h.of_mem_members hm))

omit h in
theorem plainText (h : Faithful f image node) : (image node).plainText = node.plainText := by
  induction node using member_induction with
  | step node ih =>
      have hlist : ∀ list : List Node, (∀ inner ∈ list, inner ∈ node.members) →
          plainTexts (list.map image) = plainTexts list := by
        intro list hl
        rw [plainTexts, plainTexts, List.flatMap_map]
        exact List.flatMap_congr fun inner hi =>
          ih inner (hl inner hi) (h.of_mem_members (hl inner hi))
      have htitle : ∀ inner ∈ node.kind.title, inner ∈ node.members := by
        intro inner hi
        cases hk : node.kind with
        | headline info title =>
            rw [hk] at hi
            exact mem_members_of_title hk hi
        | _ => rw [hk] at hi; cases hi
      rw [plainText_eq, plainText_eq, h.children, h.copied.kind, Kind.ownText_relabel_map,
        Kind.title_relabel, Kind.title_map, hlist _ htitle,
        hlist _ fun inner hi => mem_members_of_children hi, trailingSpaces, trailingSpaces,
        h.copied.isBlock, h.copied.postBlank]

end Faithful

theorem faithful_self (node : Node) :
    Faithful (fun label => label) (fun node => node) node := by
  refine fun inner _ => ⟨⟨?_, ?_, rfl, rfl⟩, (List.map_id' _).symm⟩
  · rw [Kind.relabel_self]
    exact inner.kind.map_id.symm
  · cases inner.caption <;> simp

/-- The nodes that were put in somewhere, with all below them. -/
def Within (extra : Node → Prop) (inner : Node) : Prop :=
  ∃ node, extra node ∧ inner ∈ node.walk

namespace Grown

theorem copied (h : Grown f image extra node) : Copied f image node := by
  cases h with
  | faithful h => exact h.copied
  | frame _ copied _ _ _ => exact copied

/-- Only frames have anything put in below them. -/
theorem faithful_of_not_frame (h : Grown f image extra node) (hk : node.kind.isFrame = false) :
    Faithful f image node := by
  cases h with
  | faithful h => exact h
  | frame kind _ _ _ _ => rw [hk] at kind; cases kind

theorem held_faithful (h : Grown f image extra node) {inner : Node}
    (hi : inner ∈ node.caption.getD [] ++ node.kind.lists.flatten) : Faithful f image inner := by
  cases h with
  | faithful h => exact h.of_mem_members (by rw [members_eq]; exact List.mem_append_left _ hi)
  | frame _ _ held _ _ => exact held inner hi

theorem children (h : Grown f image extra node) :
    (image node).children = node.children.map image ∨
      (∀ child ∈ node.children, child.kind.isBlock = true) ∧
        Interspersed extra (node.children.map image) (image node).children := by
  cases h with
  | faithful h => exact .inl h.children
  | frame _ _ _ children _ => exact children

theorem interspersed (h : Grown f image extra node) :
    Interspersed extra (node.children.map image) (image node).children := by
  obtain heq | ⟨_, hchildren⟩ := h.children
  · rw [heq]
    exact .refl _ _
  · exact hchildren

theorem of_mem_members (h : Grown f image extra node) {member : Node} (hm : member ∈ node.members) :
    Grown f image extra member := by
  rw [members_eq] at hm
  obtain hm | hm := List.mem_append.mp hm
  · exact .faithful (h.held_faithful hm)
  · cases h with
    | faithful h => exact .faithful (h.of_mem_members (mem_members_of_children hm))
    | frame _ _ _ _ below => exact below member hm

theorem of_mem_walk {inner : Node} (h : Grown f image extra node) (hi : inner ∈ node.walk) :
    Grown f image extra inner := by
  induction node using member_induction with
  | step node ih =>
      rw [walk_eq, List.mem_cons, List.mem_flatMap] at hi
      obtain rfl | ⟨member, hm, hin⟩ := hi
      · exact h
      · exact ih member hm (h.of_mem_members hm) hin

/-- The walk of the image goes through the copies, and through what was put in. -/
theorem walk (h : Grown f image extra node) :
    Interspersed (Within extra) (node.walk.map image) (image node).walk := by
  induction node using member_induction with
  | step node ih =>
      have hmember : ∀ member ∈ node.members,
          Interspersed (Within extra) (member.walk.map image) (image member).walk :=
        fun member hm => ih member hm (h.of_mem_members hm)
      have hlist : ∀ list : List Node, (∀ inner ∈ list, inner ∈ node.members) →
          Interspersed (Within extra) ((list.flatMap Node.walk).map image)
            ((list.map image).flatMap Node.walk) := by
        intro list hl
        rw [List.map_flatMap, List.flatMap_map]
        exact Interspersed.flatMap_congr fun inner hi => hmember inner (hl inner hi)
      have hchildren : Interspersed (Within extra) ((node.children.map image).flatMap Node.walk)
          ((image node).children.flatMap Node.walk) :=
        h.interspersed.flatMap fun inner he lower hl => ⟨inner, he, hl⟩
      have hheld := hlist (node.caption.getD [] ++ node.kind.lists.flatten) fun inner hi => by
        rw [members_eq]
        exact List.mem_append_left _ hi
      have hall := hheld.append
        ((hlist node.children fun inner hi => mem_members_of_children hi).trans hchildren)
      rw [← List.map_append, ← List.flatMap_append, ← List.flatMap_append] at hall
      rw [walk_eq, walk_eq, members_eq, members_eq, h.copied.held, List.map_cons]
      exact .keep _ hall

end Grown

/-- The label of a reference to a footnote or of the text of a footnote. -/
def label? (node : Node) : Option String :=
  match node.kind with
  | .footnoteReference label => label
  | .footnoteDefinition label => some label
  | _ => none

/-- Copies define the copies of labels, as long as these tell the labels apart. -/
theorem Faithful.definesFootnote (h : Faithful f image node) (label : String)
    (hf : ∀ own, node.label? = some own → f own = f label → own = label) :
    (image node).definesFootnote (f label) = node.definesFootnote label := by
  have hbeq : ∀ own, node.label? = some own → (f own == f label) = (own == label) :=
    fun own hown => Bool.eq_iff_iff.mpr (by
      rw [beq_iff_eq, beq_iff_eq]
      exact ⟨hf own hown, congrArg f⟩)
  rw [Node.definesFootnote, Node.definesFootnote, h.copied.kind, h.children, List.isEmpty_map]
  rw [label?] at hbeq
  cases hk : node.kind with
  | footnoteDefinition own => exact hbeq own (by rw [hk])
  | footnoteReference own =>
      cases own with
      | none => rfl
      | some own => exact congrArg (· && !node.children.isEmpty) (hbeq own (by rw [hk]))
  | _ => rfl

theorem isFrame_of_definesFootnote {label : String} (h : node.definesFootnote label = true) :
    node.kind.isFrame = false := by
  obtain hk | ⟨hk, _⟩ := definesFootnote_iff.mp h
  all_goals
    rw [hk]
    rfl

/-- Nothing that is put in below a node makes it the text of a footnote. -/
theorem Grown.definesFootnote (h : Grown (fun label => label) image extra node) (label : String) :
    (image node).definesFootnote label = node.definesFootnote label := by
  cases hframe : node.kind.isFrame with
  | false =>
      exact (h.faithful_of_not_frame hframe).definesFootnote label fun _ _ heq => heq
  | true =>
      have hnone : ∀ other : Node, other.kind.isFrame = true →
          other.definesFootnote label = false := fun other ho =>
        Bool.eq_false_iff.mpr fun hd => by
          rw [isFrame_of_definesFootnote hd] at ho
          cases ho
      rw [hnone node hframe, hnone (image node) (h.copied.isFrame.trans hframe)]

end Node
end OutlineWiki
