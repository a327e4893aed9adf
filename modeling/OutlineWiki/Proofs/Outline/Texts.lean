import OutlineWiki.Proofs.Outline.References

/-!
The text of a node along a tour of its tree.

A tour meets a node before and after all that it goes through in it: titles, children and, if they
are wanted, the tags of list items, but no captions. The text of a node is read when it is met
first, and the spaces after it when it is met last. The plain text of a node is read on the tour
without tags, so it lacks the texts of the tags that belong to the items on this tour.
-/

namespace OutlineWiki

namespace Kind

variable {α : Type}

/-- The tag of a list item, and no nodes otherwise. -/
def tag : Kind α → List α
  | listItem _ (some tag) => tag
  | _ => []

theorem flatten_lists (kind : Kind α) : kind.lists.flatten = kind.title ++ kind.tag := by
  cases kind with
  | listItem checkbox tag => cases tag <;> simp [lists, title, tag]
  | _ => simp [lists, title, tag]

end Kind

namespace Parts

variable {α β : Type}

/-- What a tour goes through in a node: all that it owns but the caption, or no tag either. -/
def toured (withTags : Bool) (parts : Parts α) : List α :=
  if withTags then { parts with caption := none }.members else parts.kind.title ++ parts.children

theorem toured_map (withTags : Bool) (f : α → β) (parts : Parts α) :
    (parts.map f).toured withTags = (parts.toured withTags).map f := by
  cases withTags with
  | false => exact (congrArg (· ++ _) (Kind.title_map f parts.kind)).trans List.map_append.symm
  | true => exact members_map f { parts with caption := none }

theorem toured_true (parts : Parts α) :
    parts.toured true = parts.kind.title ++ (parts.kind.tag ++ parts.children) := by
  rw [toured, if_pos rfl, ← List.append_assoc, ← Kind.flatten_lists]
  simp [members, lists]

theorem toured_sublist (parts : Parts α) : (parts.toured false).Sublist (parts.toured true) := by
  rw [toured_true]
  exact (List.Sublist.refl _).append (List.sublist_append_right _ _)

end Parts

/-- A node that is met on a tour, before what the tour goes through in it or after that. -/
inductive Visit where
  | before (node : Node)
  | after (node : Node)

namespace Visit

/-- What is read of the node on the visit. -/
def text : Visit → List Char
  | before node => node.kind.ownText
  | after node => node.trailingSpaces

/-- The node that the visit meets for the first time. -/
def met? : Visit → Option Node
  | before node => some node
  | after _ => none

end Visit

namespace Node

/-- The visits of a tour through the tree of the node, in document order. -/
def tour (withTags : Bool) : Node → List Visit :=
  fold fun node parts => .before node :: ((parts.toured withTags).flatten ++ [.after node])

/-- All that is read on a tour. -/
def tourText (withTags : Bool) (node : Node) : List Char :=
  (node.tour withTags).flatMap Visit.text

section Tour

variable (withTags : Bool) (node : Node)

theorem tour_eq : node.tour withTags =
    .before node :: ((node.parts.toured withTags).flatMap (tour withTags) ++ [.after node]) := by
  rw [tour, fold_eq, Parts.toured_map, List.flatMap_def]

theorem tourText_eq : node.tourText withTags =
    node.kind.ownText ++ ((node.parts.toured withTags).flatMap (tourText withTags) ++
      node.trailingSpaces) := by
  rw [tourText, tour_eq, List.flatMap_cons, List.flatMap_append, List.flatMap_singleton,
    List.flatMap_assoc]
  rfl

theorem before_mem_tour_iff {inner : Node} : .before inner ∈ node.tour withTags ↔
    inner = node ∨ ∃ member ∈ node.parts.toured withTags, .before inner ∈ member.tour withTags := by
  rw [tour_eq]
  simp

theorem toured_sublist_members : (node.parts.toured withTags).Sublist node.members := by
  have hall : (node.parts.toured true).Sublist node.members := by
    rw [Parts.toured_true, ← List.append_assoc, ← Kind.flatten_lists]
    exact kind_children_sublist_members node
  cases withTags with
  | true => exact hall
  | false => exact (Parts.toured_sublist node.parts).trans hall

/-- The nodes of a tour are met in the order of the walk. -/
theorem met_sublist_walk : ((node.tour withTags).filterMap Visit.met?).Sublist node.walk := by
  induction node using member_induction with
  | step node ih =>
      have htoured := toured_sublist_members withTags node
      have hinner : (((node.parts.toured withTags).flatMap (tour withTags)).filterMap
          Visit.met?).Sublist (node.members.flatMap walk) := by
        rw [List.filterMap_flatMap]
        exact (flatMap_sublist fun member hm => ih member (htoured.subset hm)).trans
          (flatMap_sublist_left walk htoured)
      rw [tour_eq, walk_eq, List.filterMap_cons, List.filterMap_append]
      refine List.Sublist.cons_cons node ?_
      rw [List.filterMap_cons, List.filterMap_nil]
      simpa only [Visit.met?, List.append_nil] using hinner

end Tour

/-- The plain text of a node is what is read on the tour without tags. -/
theorem plainText_eq_tourText (node : Node) : node.plainText = node.tourText false := by
  induction node using member_induction with
  | step node ih =>
      have hmembers := (toured_sublist_members false node).subset
      have htexts : (node.parts.toured false).flatMap plainText =
          (node.parts.toured false).flatMap (tourText false) :=
        List.flatMap_congr fun member hm => ih member (hmembers hm)
      rw [plainText_eq, tourText_eq, ← htexts, Parts.toured, if_neg Bool.false_ne_true,
        List.flatMap_append]
      simp only [plainTexts, List.append_assoc]
      rfl

section Tags

theorem append_eq_append_iff_of_sublist {α : Type} {first other second another : List α}
    (hfirst : first.Sublist other) (hsecond : second.Sublist another) :
    first ++ second = other ++ another ↔ first = other ∧ second = another := by
  constructor
  · intro h
    have hlength := congrArg List.length h
    have hle := hfirst.length_le
    have hle' := hsecond.length_le
    rw [List.length_append, List.length_append] at hlength
    exact ⟨hfirst.eq_of_length (by omega), hsecond.eq_of_length (by omega)⟩
  · rintro ⟨rfl, rfl⟩
    rfl

theorem flatMap_eq_iff_of_sublist {α β : Type} {f g : α → List β} {list : List α}
    (h : ∀ a ∈ list, (f a).Sublist (g a)) :
    list.flatMap f = list.flatMap g ↔ ∀ a ∈ list, f a = g a := by
  induction list with
  | nil => simp
  | cons a list ih =>
      obtain ⟨ha, hlist⟩ := List.forall_mem_cons.mp h
      rw [List.flatMap_cons, List.flatMap_cons, List.forall_mem_cons, ← ih hlist]
      exact append_eq_append_iff_of_sublist ha (flatMap_sublist hlist)

/-- What is read without tags is read with them too, in the same order. -/
theorem tourText_sublist (node : Node) : (node.tourText false).Sublist (node.tourText true) := by
  induction node using member_induction with
  | step node ih =>
      have hmembers := (toured_sublist_members false node).subset
      have htexts : ((node.parts.toured false).flatMap (tourText false)).Sublist
          ((node.parts.toured false).flatMap (tourText true)) :=
        flatMap_sublist fun member hm => ih member (hmembers hm)
      have htags := flatMap_sublist_left (tourText true) (Parts.toured_sublist node.parts)
      rw [tourText_eq, tourText_eq]
      exact (List.Sublist.refl _).append ((htexts.trans htags).append (.refl _))

/-- The two tours read the same in a node when its tag shows nothing and they read the same in all
that both go through. -/
theorem tourText_eq_iff_step (node : Node) :
    node.tourText false = node.tourText true ↔ node.kind.tag.flatMap (tourText true) = [] ∧
      ∀ member ∈ node.parts.toured false, member.tourText false = member.tourText true := by
  have hsub (list : List Node) : ∀ member ∈ list,
      (member.tourText false).Sublist (member.tourText true) :=
    fun member _ => tourText_sublist member
  have hchildren := flatMap_sublist (hsub node.children)
  have hplain : (node.parts.toured false).flatMap (tourText false) =
      node.kind.title.flatMap (tourText false) ++
        ([] ++ node.children.flatMap (tourText false)) :=
    List.flatMap_append
  have hfull : (node.parts.toured true).flatMap (tourText true) =
      node.kind.title.flatMap (tourText true) ++
        (node.kind.tag.flatMap (tourText true) ++ node.children.flatMap (tourText true)) := by
    rw [Parts.toured_true, List.flatMap_append, List.flatMap_append]
    rfl
  -- Each part of the shorter text stands within the same part of the longer one.
  have hparts : node.tourText false = node.tourText true ↔
      (∀ member ∈ node.kind.title, member.tourText false = member.tourText true) ∧
        node.kind.tag.flatMap (tourText true) = [] ∧
          ∀ member ∈ node.children, member.tourText false = member.tourText true := by
    rw [tourText_eq, tourText_eq, List.append_cancel_left_eq, List.append_cancel_right_eq, hplain,
      hfull, append_eq_append_iff_of_sublist (flatMap_sublist (hsub node.kind.title))
        ((List.nil_sublist _).append hchildren),
      append_eq_append_iff_of_sublist (List.nil_sublist _) hchildren,
      flatMap_eq_iff_of_sublist (hsub _), flatMap_eq_iff_of_sublist (hsub _), eq_comm (a := [])]
  rw [hparts, and_left_comm]
  exact and_congr_right' List.forall_mem_append.symm

/-- The two tours read the same exactly when no item of the tour without tags has a tag that shows
any text. -/
theorem tourText_eq_iff (node : Node) :
    node.tourText false = node.tourText true ↔
      ∀ item, .before item ∈ node.tour false → item.kind.tag.flatMap (tourText true) = [] := by
  induction node using member_induction with
  | step node ih =>
      have hmembers := (toured_sublist_members false node).subset
      rw [tourText_eq_iff_step]
      constructor
      · rintro ⟨htag, htexts⟩ item hitem
        obtain rfl | ⟨member, hm, hin⟩ := (before_mem_tour_iff false node).mp hitem
        · exact htag
        · exact (ih member (hmembers hm)).mp (htexts member hm) item hin
      · intro h
        refine ⟨h node ((before_mem_tour_iff false node).mpr (.inl rfl)), fun member hm => ?_⟩
        exact (ih member (hmembers hm)).mpr fun item hin =>
          h item ((before_mem_tour_iff false node).mpr (.inr ⟨member, hm, hin⟩))

end Tags

/-- The plain text of a node is read on the tour without tags. So nothing but the texts of tags is
missing in it, and something is missing exactly when an item on this tour has a tag that shows some
text. -/
theorem plainText_lacksTags (node : Node) :
    node.plainText = node.tourText false ∧
      (∀ withTags, ((node.tour withTags).filterMap Visit.met?).Sublist node.walk) ∧
      node.plainText.Sublist (node.tourText true) ∧
      (node.plainText = node.tourText true ↔
        ∀ item, .before item ∈ node.tour false → item.kind.tag.flatMap (tourText true) = []) := by
  have hplain := plainText_eq_tourText node
  refine ⟨hplain, fun withTags => met_sublist_walk withTags node, ?_, ?_⟩
  · rw [hplain]
    exact tourText_sublist node
  · rw [hplain]
    exact tourText_eq_iff node

example :
    let item : Node :=
      { kind := .listItem .none (some [{ kind := .plainText "term", postBlank := some 1 }]),
        children := [{ kind := .plainText "body" }] }
    item.plainText = "body".toList ∧ item.tourText true = "term body".toList := by
  decide

end Node
end OutlineWiki
