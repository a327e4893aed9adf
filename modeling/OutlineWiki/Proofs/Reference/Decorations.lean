import OutlineWiki.Proofs.Outline.Decorations
import OutlineWiki.Proofs.Reference.Images

/-!
Answers about a tree whose headlines have other attributes.

Headlines are counted by their levels and found by their identifiers and titles. As long as
these stay the same, every answer of a survey is the one about the original tree.
-/

namespace OutlineWiki

/-- The change leaves what a headline is counted and found by. -/
structure HeadlineInfo.KeepsPlace (change : HeadlineInfo → HeadlineInfo) : Prop where
  level : ∀ info, (change info).level = info.level
  customId : ∀ info, (change info).customId = info.customId
  id : ∀ info, (change info).id = info.id
  footnoteSection : ∀ info, (change info).footnoteSection = info.footnoteSection

theorem Kind.name_redress {α : Type} (change : HeadlineInfo → HeadlineInfo) (kind : Kind α) :
    (kind.redress change).name = kind.name := by
  cases kind <;> rfl

namespace Node

section Attributes

variable (change : HeadlineInfo → HeadlineInfo) (node : Node)

theorem isRadioTarget_redress : (node.redress change).isRadioTarget = node.isRadioTarget := by
  rw [isRadioTarget, isRadioTarget, kind_redress]
  cases node.kind <;> rfl

theorem linkPath?_redress : (node.redress change).linkPath? = node.linkPath? := by
  rw [linkPath?, linkPath?, kind_redress]
  cases node.kind <;> rfl

theorem isStandardRow_redress : (node.redress change).isStandardRow = node.isStandardRow := by
  rw [isStandardRow, isStandardRow, kind_redress]
  cases node.kind <;> rfl

theorem preformattedDrawing_redress :
    (node.redress change).preformattedDrawing = node.preformattedDrawing := by
  rw [preformattedDrawing, preformattedDrawing, kind_redress]
  cases node.kind <;> rfl

theorem shownCaption?_redress :
    (node.redress change).shownCaption? = node.shownCaption?.map (·.map (redress change)) := by
  rw [shownCaption?, shownCaption?, caption_redress]
  cases node.caption with
  | none => rfl
  | some caption => cases caption <;> rfl

theorem labelledLines_redress : (node.redress change).labelledLines = node.labelledLines := by
  have hcode : (node.redress change).labelledCode? = node.labelledCode? := by
    rw [labelledCode?, labelledCode?, kind_redress]
    cases node.kind <;> rfl
  rw [labelledLines, labelledLines, hcode]

theorem titleText_redress : (node.redress change).titleText = node.titleText := by
  rw [titleText, titleText, kind_redress, Kind.title_redress, Kind.title_map, plainTexts_redress]

theorem hasMarkingColumn_redress :
    (node.redress change).hasMarkingColumn = node.hasMarkingColumn := by
  have hrows : (node.redress change).standardRows = node.standardRows.map (redress change) := by
    rw [standardRows, standardRows, children_redress, List.filter_map]
    exact congrArg (fun p => (node.children.filter p).map (redress change))
      (funext (isStandardRow_redress change))
  have hcolumn : (node.redress change).firstColumn = node.firstColumn := by
    rw [firstColumn, firstColumn, hrows, List.filterMap_map]
    refine List.filterMap_congr fun row _ => ?_
    rw [Function.comp_apply, children_redress, List.head?_map, Option.map_map]
    exact Option.map_congr fun cell _ => congrArg Text.trim (plainText_redress change cell)
  rw [hasMarkingColumn, hasMarkingColumn, hcolumn]

end Attributes

variable {change : HeadlineInfo → HeadlineInfo} (h : HeadlineInfo.KeepsPlace change)

theorem elementNumbers_redress (seen : List String) (nodes : List Node) :
    elementNumbers seen (nodes.map (redress change)) = elementNumbers seen nodes := by
  induction nodes generalizing seen with
  | nil => rfl
  | cons node nodes ih =>
      have hname : (node.redress change).kind.name = node.kind.name := by
        rw [kind_redress, Kind.name_redress, Kind.name_map]
      rw [List.map_cons, elementNumbers, elementNumbers, caption_redress, Option.isSome_map, hname,
        id_redress, ih, ih]

include h

theorem numberedHeadline?_redress (node : Node) :
    (node.redress change).numberedHeadline? = node.numberedHeadline?.map change := by
  rw [numberedHeadline?, numberedHeadline?, kind_redress]
  cases node.kind with
  | headline info title =>
      simp only [Kind.map, Kind.redress, h.footnoteSection]
      split <;> rfl
  | _ => rfl

theorem sectionNumbers_redress (previous : List Nat) (nodes : List Node) :
    sectionNumbers previous (nodes.map (redress change)) = sectionNumbers previous nodes := by
  induction nodes generalizing previous with
  | nil => rfl
  | cons node nodes ih =>
      rw [List.map_cons, sectionNumbers, sectionNumbers, numberedHeadline?_redress h, id_redress]
      cases node.numberedHeadline? with
      | none => exact ih previous
      | some info =>
          have hdepth : (change info).depth = info.depth := by
            rw [HeadlineInfo.depth, HeadlineInfo.depth, h.level]
          rw [Option.map_some]
          simp only [hdepth, ih]

end Node

namespace Survey

variable {change : HeadlineInfo → HeadlineInfo} (h : HeadlineInfo.KeepsPlace change)
  (tree : Node) (options : Options) (externalIds : List (String × String))

theorem radioTarget_redress (link : Node) :
    (ofTree (tree.redress change) options externalIds).radioTarget (link.redress change) =
      ((ofTree tree options externalIds).radioTarget link).map (Node.redress change) := by
  rw [radioTarget_eq, radioTarget_eq, Node.linkPath?_redress, Option.map_bind]
  refine Option.bind_congr fun path _ => Node.find?_walk_redress change (fun node => ?_) tree
  rw [Node.isRadioTarget_redress, Node.plainText_redress]

theorem codeReference_redress :
    (ofTree (tree.redress change) options externalIds).codeReference =
      (ofTree tree options externalIds).codeReference := by
  have hlines : (tree.redress change).walk.flatMap Node.labelledLines =
      tree.walk.flatMap Node.labelledLines := by
    rw [Node.walk_redress, List.flatMap_map]
    exact List.flatMap_congr fun node _ => Node.labelledLines_redress change node
  funext label description
  simp only [codeReference, ofTree, hlines]

include h

theorem ordinal_redress (node : Node) :
    (ofTree (tree.redress change) options externalIds).ordinal (node.redress change) =
      (ofTree tree options externalIds).ordinal node := by
  simp only [ordinal, ofTree, Node.walk_redress, Node.sectionNumbers_redress h,
    Node.elementNumbers_redress, Node.id_redress]

theorem headlineWith?_redress {identifier : HeadlineInfo → Option String}
    (hid : ∀ info, identifier (change info) = identifier info) (path : String) :
    (ofTree (tree.redress change) options externalIds).headlineWith? identifier path =
      ((ofTree tree options externalIds).headlineWith? identifier path).map
        (Node.redress change) := by
  refine Node.find?_walk_redress change (fun node => ?_) tree
  rw [Node.numberedHeadline?_redress h]
  cases node.numberedHeadline? with
  | none => rfl
  | some info => rw [Option.map_some, Option.bind_some, Option.bind_some, hid]

theorem headlineTitled?_redress (title : List Char) :
    (ofTree (tree.redress change) options externalIds).headlineTitled? title =
      ((ofTree tree options externalIds).headlineTitled? title).map (Node.redress change) := by
  rw [headlineTitled?_eq, headlineTitled?_eq]
  refine Node.find?_walk_redress change (fun node => ?_) tree
  rw [Node.numberedHeadline?_redress h, Option.isSome_map, Node.titleText_redress]

theorem fuzzyTarget_redress (link : Node) :
    (ofTree (tree.redress change) options externalIds).fuzzyTarget (link.redress change) =
      ((ofTree tree options externalIds).fuzzyTarget link).map (Node.redress change) := by
  have hname : ∀ path : String,
      (ofTree (tree.redress change) options externalIds).nodes.find?
          (fun node => node.name == some path) =
        ((ofTree tree options externalIds).nodes.find?
          fun node => node.name == some path).map (Node.redress change) := fun path =>
    Node.find?_walk_redress change (fun node => by rw [Node.name_redress]) tree
  rw [fuzzyTarget, fuzzyTarget, Node.linkPath?_redress]
  cases link.linkPath? with
  | none => rfl
  | some path =>
      dsimp only
      split
      · exact headlineTitled?_redress h tree options externalIds _
      · rw [hname, headlineTitled?_redress h]
        cases (ofTree tree options externalIds).nodes.find? fun node => node.name == some path <;>
          rfl

end Survey
end OutlineWiki
