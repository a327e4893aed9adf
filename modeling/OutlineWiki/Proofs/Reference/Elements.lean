import Mathlib.Data.List.Induction
import OutlineWiki.Outline.Build
import OutlineWiki.Proofs.Reference.Sections

/-!
Numbers of captioned elements in a document.

A survey counts the elements of each kind that have a caption, also those whose caption holds
no node. Such a caption is never shown, and whoever asks for it is told that there is none. So
the numbers are those of the shown captions exactly where no empty one is counted before.
-/

namespace OutlineWiki

namespace Node

/-- Whether the node is counted among the elements of its kind. -/
def isElement (node : Node) : Bool :=
  node.caption.isSome

/-- How many of the nodes pass a test and are of the same kind as a given one. -/
def countPeers (test : Node → Bool) (node : Node) (nodes : List Node) : Nat :=
  nodes.countP fun other => other.kind.name == node.kind.name && test other

theorem isSome_shownCaption?_iff (node : Node) :
    node.shownCaption?.isSome = true ↔ node.isElement = true ∧ node.caption ≠ some [] := by
  rw [shownCaption?, isElement]
  cases node.caption with
  | none => simp
  | some caption => cases caption <;> simp

/-- Fewer nodes pass the stricter test, unless each peer that passes the one passes both. -/
theorem countPeers_eq_iff {test strict : Node → Bool} (h : ∀ node, strict node → test node)
    (node : Node) (nodes : List Node) :
    countPeers strict node nodes = countPeers test node nodes ↔
      ∀ other ∈ nodes, other.kind.name = node.kind.name → test other → strict other := by
  induction nodes with
  | nil => simp [countPeers]
  | cons first nodes ih =>
      have hle : countPeers strict node nodes ≤ countPeers test node nodes :=
        List.countP_mono_left fun other _ hstrict => by
          rw [Bool.and_eq_true] at hstrict ⊢
          exact ⟨hstrict.1, h other hstrict.2⟩
      rw [List.forall_mem_cons, ← ih]
      rw [countPeers, countPeers] at ih hle ⊢
      rw [countPeers, countPeers, List.countP_cons, List.countP_cons]
      by_cases hkind : first.kind.name = node.kind.name
      · have himplies := h first
        cases htest : test first <;> cases hstrict : strict first <;> simp_all
        omega
      · simp [hkind]

end Node

section Numbers

open Node (countPeers isElement)

theorem ids_elementNumbers (seen : List String) (nodes : List Node) :
    (elementNumbers seen nodes).map (·.1) = (nodes.filter isElement).map (·.id) := by
  induction nodes generalizing seen with
  | nil => rfl
  | cons node nodes ih =>
      rw [elementNumbers, List.filter_cons, isElement]
      split
      · exact congrArg (List.cons node.id) (ih _)
      · exact ih seen

/-- An element is numbered after the elements of its kind that come before it. -/
theorem lookup_elementNumbers_split {before after : List Node} {node : Node}
    (h : node.isElement = true) (hid : ∀ other ∈ before, other.id ≠ node.id)
    (seen : List String) :
    (elementNumbers seen (before ++ node :: after)).lookup node.id =
      some (seen.count node.kind.name + countPeers isElement node before + 1) := by
  induction before generalizing seen with
  | nil =>
      rw [isElement] at h
      rw [List.nil_append, elementNumbers, if_pos h]
      exact List.lookup_cons_self
  | cons other before ih =>
      obtain ⟨hother, hbefore⟩ := List.forall_mem_cons.mp hid
      rw [List.cons_append, elementNumbers, countPeers, List.countP_cons, ← countPeers]
      split
      · next hcounted =>
          have hbeq : (node.id == other.id) = false := beq_eq_false_iff_ne.mpr hother.symm
          rw [List.lookup_cons, hbeq]
          dsimp only
          rw [ih hbefore, List.count_cons, isElement, hcounted, Bool.and_true]
          simp only [beq_iff_eq]
          congr 2
          omega
      · next hcounted =>
          have hother : other.isElement = false := by simpa [isElement] using hcounted
          rw [ih hbefore, hother, Bool.and_false, if_neg Bool.false_ne_true]
          rfl

/-- The members of a list that pass a test are met in order, each after as many others as there
are before it. -/
theorem map_filter_eq_range {α β : Type} {list : List α} {test : α → Bool} {f : α → β}
    {g : Nat → β} (h : ∀ before a after, list = before ++ a :: after → test a = true →
      f a = g (before.countP test)) :
    (list.filter test).map f = (List.range (list.countP test)).map g := by
  induction list using List.reverseRecOn with
  | nil => rfl
  | append_singleton list a ih =>
      have hlist := ih fun before b after heq hb =>
        h before b (after ++ [a]) (by rw [heq, List.append_assoc, List.cons_append]) hb
      rw [List.filter_append, List.countP_append, List.map_append, hlist, List.filter_singleton,
        List.countP_singleton]
      cases htest : test a with
      | false => simp
      | true =>
          rw [cond_true, if_pos rfl, List.range_succ, List.map_append, List.map_singleton,
            List.map_singleton, h list a [] rfl htest]

end Numbers

namespace Survey

open Node (countPeers isElement)

variable {root node : Node} {options : Options} {externalIds : List (String × String)}

theorem lookup_sections_of_not_isNumbered (hn : node ∈ root.prepare.walk)
    (h : node.isNumbered = false) :
    (ofTree root.prepare options externalIds).sections.lookup node.id = none := by
  refine Option.eq_none_iff_forall_ne_some.mpr fun numbers hlookup => ?_
  have hordinal : (ofTree root.prepare options externalIds).ordinal node =
      some (.dotted numbers) := by
    rw [ordinal, hlookup]
  rw [isNumbered_of_ordinal hn hordinal] at h
  cases h

/-- An element other than a numbered headline has its number among the elements of its kind. -/
theorem ordinal_of_not_isNumbered {before after : List Node}
    (hwalk : root.prepare.walk = before ++ node :: after) (h : node.isNumbered = false) :
    (ofTree root.prepare options externalIds).ordinal node =
      if node.isElement then some (.single (1 + countPeers isElement node before)) else none := by
  have hn : node ∈ root.prepare.walk := hwalk ▸ List.mem_append_right _ List.mem_cons_self
  rw [ordinal, lookup_sections_of_not_isNumbered hn h]
  change ((elementNumbers [] root.prepare.walk).lookup node.id).map Ordinal.single = _
  have hid : ∀ other ∈ before, other.id ≠ node.id := by
    have hincrease := root.ids_increase
    rw [hwalk] at hincrease
    exact fun other ho =>
      Nat.ne_of_lt ((List.pairwise_append.mp hincrease).2.2 other ho node List.mem_cons_self)
  cases helement : node.isElement with
  | true =>
      rw [hwalk, lookup_elementNumbers_split helement hid, if_pos rfl, List.count_nil,
        Nat.zero_add, Nat.add_comm]
      rfl
  | false =>
      have hnone : (elementNumbers [] root.prepare.walk).lookup node.id = none := by
        refine List.lookup_eq_none_iff.mpr fun entry hentry => ?_
        have hid : entry.1 ∈ (root.prepare.walk.filter isElement).map (·.id) :=
          ids_elementNumbers [] root.prepare.walk ▸ List.mem_map_of_mem hentry
        obtain ⟨other, ho, heq⟩ := List.mem_map.mp hid
        obtain ⟨hother, hcounted⟩ := List.mem_filter.mp ho
        rw [bne_iff_ne]
        intro hsame
        rw [Node.eq_of_id_eq hn hother (hsame.trans heq.symm), hcounted] at helement
        cases helement
      rw [hnone, if_neg Bool.false_ne_true]
      rfl

theorem not_isNumbered_of_name {name : String} (hname : node.kind.name = name)
    (h : name ≠ "headline") : node.isNumbered = false := by
  subst hname
  rw [Node.isNumbered, Node.numberedHeadline?]
  cases hkind : node.kind with
  | headline info title => rw [hkind] at h; exact absurd rfl h
  | _ => rfl

/-- The node has a number exactly when it shows a caption, and the number counts the nodes of its
kind up to the node that show one. -/
def NumbersShown (survey : Survey) (before : List Node) (node : Node) : Prop :=
  ∀ number, survey.host.ordinal node = some (.single number) ↔
    (survey.host.caption node).isSome = true ∧
      number = 1 + countPeers (fun other => (survey.host.caption other).isSome) node before

/-- Among elements with any caption, a node is numbered as if only shown captions counted exactly
when neither the node nor an element of its kind before it has an empty one. -/
theorem numbersShown_iff {before after : List Node}
    (hwalk : root.prepare.walk = before ++ node :: after) (h : node.isNumbered = false) :
    (ofTree root.prepare options externalIds).NumbersShown before node ↔
      node.caption ≠ some [] ∧
        (node.isElement = true → ∀ other ∈ before, other.kind.name = node.kind.name →
          other.caption ≠ some []) := by
  have hstrict : ∀ other : Node, other.shownCaption?.isSome → other.isElement :=
    fun other hother => ((Node.isSome_shownCaption?_iff other).mp hother).1
  have hcount := Node.countPeers_eq_iff hstrict node before
  have hshown := Node.isSome_shownCaption?_iff node
  have hpeers : (∀ other ∈ before, other.kind.name = node.kind.name → other.isElement = true →
        other.shownCaption?.isSome = true) ↔
      ∀ other ∈ before, other.kind.name = node.kind.name → other.caption ≠ some [] := by
    refine forall₃_congr fun other _ _ => ?_
    rw [Node.isSome_shownCaption?_iff]
    constructor
    · intro hall hempty
      exact (hall (by rw [isElement, hempty]; rfl)).2 hempty
    · exact fun hne helement => ⟨helement, hne⟩
  rw [← hpeers, ← hcount]
  change (∀ number, (ofTree root.prepare options externalIds).ordinal node = some (.single number) ↔
    node.shownCaption?.isSome = true ∧ number =
      1 + countPeers (fun other => other.shownCaption?.isSome) node before) ↔ _
  rw [ordinal_of_not_isNumbered hwalk h]
  cases helement : node.isElement with
  | false =>
      have hcaption : node.caption ≠ some [] := fun hempty => by
        rw [isElement, hempty] at helement
        cases helement
      rw [helement] at hshown
      simp [hcaption, hshown]
  | true =>
      rw [hshown, helement]
      constructor
      · intro hall
        obtain ⟨⟨_, hcaption⟩, hsame⟩ := (hall _).mp rfl
        exact ⟨hcaption, fun _ => (Nat.add_left_cancel hsame).symm⟩
      · rintro ⟨hcaption, hsame⟩ number
        rw [if_pos rfl, hsame rfl, Option.some.injEq, Ordinal.single.injEq]
        exact ⟨fun heq => ⟨⟨rfl, hcaption⟩, heq.symm⟩, fun heq => heq.2.symm⟩

/-- Whatever is no numbered headline has a number exactly when it has a caption, be it an empty
one, and the number counts the captioned nodes of its kind. So the nodes of a kind have the numbers
from one on without gaps. They are the numbers of the shown captions exactly as long as no empty
caption comes up. -/
theorem elements_numbered (root : Node) (options : Options)
    (externalIds : List (String × String)) :
    let survey := ofTree root.prepare options externalIds
    (∀ before node after, root.prepare.walk = before ++ node :: after →
      node.isNumbered = false →
        (∀ number, survey.host.ordinal node = some number ↔
          node.isElement = true ∧ number = .single (1 + countPeers isElement node before)) ∧
        (survey.NumbersShown before node ↔
          node.caption ≠ some [] ∧
            (node.isElement = true → ∀ other ∈ before, other.kind.name = node.kind.name →
              other.caption ≠ some []))) ∧
    ∀ name, name ≠ "headline" →
      let elements := root.prepare.walk.filter fun node => node.kind.name == name && node.isElement
      elements.map survey.host.ordinal =
        (List.range elements.length).map fun place => some (.single (1 + place)) := by
  intro survey
  refine ⟨fun before node after hwalk h => ⟨fun number => ?_, numbersShown_iff hwalk h⟩,
    fun name hname => ?_⟩
  · change (ofTree root.prepare options externalIds).ordinal node = some number ↔ _
    rw [ordinal_of_not_isNumbered hwalk h]
    cases node.isElement <;> simp [eq_comm]
  · intro elements
    rw [← List.countP_eq_length_filter]
    refine map_filter_eq_range fun before node after hwalk htest => ?_
    rw [Bool.and_eq_true, beq_iff_eq] at htest
    obtain ⟨rfl, helement⟩ := htest
    change (ofTree root.prepare options externalIds).ordinal node = _
    rw [ordinal_of_not_isNumbered hwalk (not_isNumbered_of_name rfl hname), if_pos helement]
    rfl

/-- The first of two paragraphs has a caption without nodes. It is numbered all the same, and the
one caption that is shown has the second number. -/
theorem elements_numbered_emptyCaption :
    let untold : Node := { Node.paragraph [] with caption := some [] }
    let root := Node.document [untold, (Node.paragraph []).withCaption "Figure"]
    let survey := ofTree root.prepare {} []
    ∃ before first second after, root.prepare.walk = before ++ first :: second :: after ∧
      first.isNumbered = false ∧ second.isNumbered = false ∧
      survey.host.ordinal first = some (.single 1) ∧ survey.host.caption first = none ∧
      survey.host.ordinal second = some (.single 2) ∧
      ¬ survey.NumbersShown before first ∧ ¬ survey.NumbersShown (before ++ [first]) second := by
  intro untold root survey
  obtain ⟨hsplit, _⟩ := elements_numbered root {} []
  obtain ⟨hnumber, hshown⟩ := hsplit [_] _ [_, _] rfl rfl
  obtain ⟨hnext, hpeers⟩ := hsplit [_, _] _ [_] rfl rfl
  refine ⟨_, _, _, _, rfl, rfl, rfl, (hnumber _).mpr ⟨rfl, rfl⟩, rfl, (hnext _).mpr ⟨rfl, rfl⟩,
    fun h => (hshown.mp h).1 rfl, fun h => ?_⟩
  exact (hpeers.mp h).2 rfl _ (List.mem_cons_of_mem _ List.mem_cons_self) rfl rfl

end Survey

end OutlineWiki
