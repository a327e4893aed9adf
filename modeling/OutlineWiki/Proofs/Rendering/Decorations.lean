import OutlineWiki.Proofs.Reference.Decorations
import OutlineWiki.Proofs.Rendering.Images

/-!
Decorations of headings.

The word for the state of a task, the priority and the tags of a headline only show in its
heading. Leaving them out of the headings by the options is leaving them out of the tree. The
two trees correspond node by node, all other questions about them have the same answers, and
so the rest of the export is the same too.
-/

namespace OutlineWiki

open Markup

/-- Which decorations are left out of headings. -/
structure Decorations where
  todo : Bool := false
  tags : Bool := false
  priority : Bool := false

/-- The options with some decorations switched off. -/
def Options.without (off : Decorations) (options : Options) : Options :=
  { options with
    withTodoKeywords := if off.todo then false else options.withTodoKeywords
    withTags := if off.tags then false else options.withTags
    withPriority := if off.priority then false else options.withPriority }

/-- The attributes of a headline with some of its decorations erased. -/
def HeadlineInfo.without (off : Decorations) (info : HeadlineInfo) : HeadlineInfo :=
  { info with
    todo := if off.todo then none else info.todo
    tags := if off.tags then [] else info.tags
    priority := if off.priority then none else info.priority }

/-- The tree with some decorations erased from all its headlines. -/
def Node.without (off : Decorations) : Node → Node :=
  redress (HeadlineInfo.without off)

theorem HeadlineInfo.keepsPlace_without (off : Decorations) :
    HeadlineInfo.KeepsPlace (HeadlineInfo.without off) :=
  ⟨fun _ => rfl, fun _ => rfl, fun _ => rfl, fun _ => rfl⟩

theorem Options.undecorated_without (off : Decorations) (options : Options) :
    (options.without off).undecorated = options.undecorated :=
  rfl

theorem headingStart_without (off : Decorations) (options : Options) (info : HeadlineInfo) :
    headingStart (options.without off) info = headingStart options (info.without off) := by
  obtain ⟨todo, tags, priority⟩ := off
  obtain ⟨level, word, mark⟩ := info
  refine congrArg₂ List.append ?_ ?_
  · cases word <;> cases todo <;> rfl
  · cases mark <;> cases priority <;> rfl

theorem headingTags_without (off : Decorations) (options : Options) (info : HeadlineInfo) :
    headingTags (options.without off) info = headingTags options (info.without off) := by
  rw [headingTags, headingTags, Options.without, HeadlineInfo.without]
  cases off.tags with
  | false => rfl
  | true => simp

theorem Options.layOutAlike_without (off : Decorations) (options : Options) (info : HeadlineInfo) :
    (options.without off).LayOutAlike options info (info.without off) := by
  refine ⟨rfl, ?_⟩
  funext title contents
  rw [headlineMarkup, headlineMarkup, headingStart_without, headingTags_without]
  rfl

namespace Node

/-- The node is the other one with changed attributes of headlines. -/
def Redressed (change : HeadlineInfo → HeadlineInfo) (_ : Nat) (node more : Node) : Prop :=
  node.redress change = more

section Answers

variable {change : HeadlineInfo → HeadlineInfo} {options others : Options}
  (hoptions : options.undecorated = others.undecorated) (tree : Node)
  (externalIds : List (String × String))

theorem steady_redressed (nodes : List Node) :
    List.Forall₂ (Steady (Redressed change)) nodes (nodes.map (redress change)) := by
  rw [List.forall₂_map_right_iff, List.forall₂_same]
  exact fun node _ depth => rfl

theorem steady_redressed_option (nodes : Option (List Node)) :
    Option.Rel (List.Forall₂ (Steady (Redressed change))) nodes
      (nodes.map (·.map (redress change))) := by
  cases nodes with
  | none => exact .none
  | some nodes => exact .some (steady_redressed nodes)

include hoptions in
/-- What a survey tells does not depend on the decorations that are shown. -/
theorem surveyOfTree_eq :
    Survey.ofTree tree others externalIds = Survey.ofTree tree options externalIds := by
  change Survey.ofTree tree others.undecorated externalIds =
    Survey.ofTree tree options.undecorated externalIds
  rw [hoptions]

theorem like_redressed {same : HeadlineInfo → HeadlineInfo → Prop}
    (hsame : ∀ info, same info (change info)) (node : Node) :
    node.kind.Like same (Steady (Redressed change)) (node.redress change).kind := by
  rw [kind_redress]
  cases node.kind with
  | headline info title => exact .headline (hsame info) (steady_redressed title)
  | listItem checkbox tag => exact .listItem (steady_redressed_option tag)
  | footnoteReference label => exact .footnoteReference
  | footnoteDefinition label => exact .footnoteDefinition
  | _ => exact .plain rfl

theorem listTypeAround_redress (node : Node) :
    listTypeAround (Index.ofTree (tree.redress change)) (node.redress change) =
      listTypeAround (Index.ofTree tree) node := by
  rw [listTypeAround, listTypeAround, Index.parent?_redress]
  cases (Index.ofTree tree).parent? node with
  | none => rfl
  | some owner =>
      simp only [Option.map_some, kind_redress]
      cases owner.kind <;> rfl

theorem isMarkingCell_redress (cell : Node) :
    isMarkingCell (Context.ofTree tree options externalIds) cell =
      isMarkingCell (Context.ofTree (tree.redress change) others externalIds)
        (cell.redress change) := by
  simp only [isMarkingCell, Context.ofTree, Survey.host, Index.position?_redress,
    Index.parent?_redress, Option.bind_map]
  cases (Index.ofTree tree).parent? cell with
  | none => rfl
  | some row =>
      simp only [Option.bind_some, Function.comp_apply, Index.parent?_redress]
      cases (Index.ofTree tree).parent? row with
      | none => rfl
      | some table => simp only [Option.map_some, hasMarkingColumn_redress]

theorem footnote?_iff_of_redressed {node more reference twin : Node}
    (hnode : node.redress change = more) (hreference : reference.redress change = twin) :
    node.footnote? = reference.footnote? ↔ more.footnote? = twin.footnote? := by
  rw [← hnode, ← hreference, footnote?_redress, footnote?_redress]

theorem follows_redress (reference : Node) :
    (((Index.ofTree tree).previous? reference).any
        fun before => before.kind.isFootnoteReference) =
      ((Index.ofTree (tree.redress change)).previous? (reference.redress change)).any
        fun before => before.kind.isFootnoteReference := by
  rw [Index.previous?_redress]
  cases (Index.ofTree tree).previous? reference with
  | none => rfl
  | some before =>
      rw [Option.map_some, Option.any_some, Option.any_some, kind_redress]
      cases before.kind <;> rfl

section Links

variable (hplace : HeadlineInfo.KeepsPlace change)
include hoptions hplace

theorem crossReference_redress (link : Node) :
    crossReference (Context.ofTree tree options externalIds) link =
      crossReference (Context.ofTree (tree.redress change) others externalIds)
        (link.redress change) := by
  have hextension : options.outputExtension = others.outputExtension := by
    change options.undecorated.outputExtension = others.undecorated.outputExtension
    rw [hoptions]
  funext description
  simp only [crossReference, Context.ofTree, surveyOfTree_eq hoptions, Survey.host,
    Survey.crossReference, kind_redress, ← hextension]
  cases link.kind with
  | link type path =>
      simp only [Kind.map, Kind.bare, Kind.redress]
      have hid : ∀ info, (if type.tag = "custom-id" then (fun info => info.customId)
          else fun info : HeadlineInfo => info.id) (change info) =
          (if type.tag = "custom-id" then (fun info => info.customId)
            else fun info : HeadlineInfo => info.id) info := by
        intro info
        split
        · exact hplace.customId info
        · exact hplace.id info
      rw [Survey.headlineWith?_redress hplace tree options externalIds hid]
      cases (Survey.ofTree tree options externalIds).headlineWith? _ path with
      | none =>
          simp only [Option.map_none, Survey.ofTree]
          cases externalIds.lookup path <;> rfl
      | some target =>
          simp only [Option.map_some, Survey.ordinal_redress hplace]
          rfl
  | _ => rfl

theorem fuzzyLink_redress (link : Node) :
    fuzzyLink (Context.ofTree tree options externalIds) link =
      fuzzyLink (Context.ofTree (tree.redress change) others externalIds)
        (link.redress change) := by
  have hordinal : ((Survey.ofTree (tree.redress change) options externalIds).fuzzyTarget
        (link.redress change)).bind
          (Survey.ofTree (tree.redress change) options externalIds).ordinal =
      ((Survey.ofTree tree options externalIds).fuzzyTarget link).bind
        (Survey.ofTree tree options externalIds).ordinal := by
    rw [Survey.fuzzyTarget_redress hplace, Option.bind_map]
    exact Option.bind_congr fun target _ =>
      Survey.ordinal_redress hplace tree options externalIds target
  funext description
  simp only [fuzzyLink, Context.ofTree, surveyOfTree_eq hoptions, Survey.host, hordinal]

/-- A tree corresponds to the one whose headlines have other attributes, as long as these leave
the headings alike. -/
theorem corresponds_redress (hlike : ∀ info, options.LayOutAlike others info (change info)) :
    Corresponds (Context.ofTree tree options externalIds)
      (Context.ofTree (tree.redress change) others externalIds) (Redressed change) where
  options := hoptions
  localize := by
    rw [Context.ofTree, Context.ofTree, surveyOfTree_eq hoptions]
    rfl
  codeReference := by
    rw [Context.ofTree, Context.ofTree, surveyOfTree_eq hoptions]
    exact (Survey.codeReference_redress tree options externalIds).symm
  showsImage := rfl
  kind := by
    rintro _ node _ rfl
    exact like_redressed hlike node
  children := by
    rintro depth node _ rfl
    rw [children_redress]
    exact .of_forall₂ ((steady_redressed node.children).imp fun _ _ hs => hs depth)
  postBlank := by
    rintro _ node _ rfl
    exact (postBlank_redress change node).symm
  item := by
    rintro _ node _ _ _ rfl _
    exact (listTypeAround_redress tree node).symm
  cell := by
    rintro _ node _ rfl _
    exact isMarkingCell_redress tree externalIds node
  drawing := by
    rintro _ node _ _ rfl _
    exact (preformattedDrawing_redress change node).symm
  caption := by
    rintro _ node _ _ rfl _
    change Option.Rel _ node.shownCaption? (node.redress change).shownCaption?
    rw [shownCaption?_redress]
    exact steady_redressed_option node.shownCaption?
  cross := by
    rintro _ node _ _ _ rfl _
    exact crossReference_redress hoptions tree externalIds hplace node
  fuzzy := by
    rintro _ node _ _ _ rfl _
    exact fuzzyLink_redress hoptions tree externalIds hplace node
  radio := by
    rintro _ node _ _ _ rfl _
    change Option.Rel _ ((Survey.ofTree tree options externalIds).radioTarget node)
      ((Survey.ofTree (tree.redress change) others externalIds).radioTarget (node.redress change))
    rw [surveyOfTree_eq hoptions, Survey.radioTarget_redress]
    cases (Survey.ofTree tree options externalIds).radioTarget node with
    | none => exact .none
    | some target =>
        refine .some ?_
        rw [children_redress]
        exact steady_redressed target.children
  image := by
    rintro _ node _ _ _ rfl _
    change Option.Rel _ (((Index.ofTree tree).parentBlock? node).bind shownCaption?)
      (((Index.ofTree (tree.redress change)).parentBlock? (node.redress change)).bind
        shownCaption?)
    rw [Index.parentBlock?_redress]
    cases (Index.ofTree tree).parentBlock? node with
    | none => exact .none
    | some block =>
        rw [Option.map_some, Option.bind_some, Option.bind_some, shownCaption?_redress]
        exact steady_redressed_option block.shownCaption?
  reference := by
    rintro _ node _ _ rfl _ depth
    rfl
  follows := by
    rintro _ node _ _ rfl _
    exact follows_redress tree node
  footnote hnode hreference := footnote?_iff_of_redressed (hnode 0) (hreference 0)
  text := by
    intro node more hnode
    obtain rfl := hnode 0
    change Option.Rel _ ((Index.ofTree tree).footnoteText? node)
      ((Index.ofTree (tree.redress change)).footnoteText? (node.redress change))
    rw [Index.footnoteText?_redress]
    exact steady_redressed_option _

end Links

end Answers

/-- Attributes of headlines that leave the headings alike leave the whole export as it is. -/
theorem wikiMarkup?_redress {change : HeadlineInfo → HeadlineInfo} {options others : Options}
    (hoptions : options.undecorated = others.undecorated)
    (hplace : HeadlineInfo.KeepsPlace change)
    (hlike : ∀ info, options.LayOutAlike others info (change info)) (root : Node) :
    (root.redress change).wikiMarkup? others = root.wikiMarkup? options := by
  have hcorresponds := corresponds_redress hoptions root.prepare [] hplace hlike
  rw [wikiMarkup?_eq, wikiMarkup?_eq, prepare_redress, walk_redress, List.length_map]
  exact (Context.exportWithin_agrees hcorresponds rfl _).symm

/-- Switching decorations off is erasing them from all headlines of the tree: the export is the
same, or there is none in either case. -/
theorem wikiMarkup_without (off : Decorations) (options : Options) (root : Node) :
    root.wikiMarkup? (options.without off) = (root.without off).wikiMarkup? options :=
  (wikiMarkup?_redress (options.undecorated_without off) (HeadlineInfo.keepsPlace_without off)
    (options.layOutAlike_without off) root).symm

end Node
end OutlineWiki
