import OutlineWiki.Proofs.Rendering.RunLines
import OutlineWiki.Proofs.Text.Shown

/-!
Running text in a paragraph.

Plain text, bold and italic runs, and links to other resources with a description that shows
something are rendered without a look at the rest of the tree. So their markup is a function of the
nodes and the options alone, and rendering gives it as soon as the depth lasts for the nodes in one
another.
-/

namespace OutlineWiki

open Markup Text

namespace Markup

/-- Something in the text is not blank. -/
def ShowsSomething (text : List Char) : Prop :=
  ∃ c ∈ text, isBlank c = false

variable {text : List Char}

theorem showsSomething_iff : ShowsSomething text ↔ isBlankLine text = false := by
  simp [ShowsSomething, isBlankLine]

theorem showsSomething_hardBreaks (h : ShowsSomething text) : ShowsSomething (hardBreaks text) := by
  obtain ⟨c, hc, hblank⟩ := h
  refine ⟨c, ?_, hblank⟩
  induction text using line_induction with
  | last line hline => rwa [hardBreaks_line hline]
  | line line rest hline ih =>
      rw [hardBreaks_line_append hline]
      obtain hc | hc := List.mem_append.mp hc
      · -- What is dropped at the end of a line is blank.
        obtain ⟨blanks, hsplit, hblanks⟩ := exists_trailing isIndent line
        rw [hsplit, List.mem_append] at hc
        obtain hc | hc := hc
        · exact List.mem_append_left _ (List.mem_append_left _ hc)
        · rw [isBlank_of_isIndent (hblanks c hc)] at hblank
          cases hblank
      · obtain rfl | hc := List.mem_cons.mp hc
        · cases hblank
        · exact List.mem_append_right _ (ih hc)

theorem showsSomething_run (options : Options) (h : ShowsSomething text) :
    ShowsSomething (run options text) := by
  have hsoft : ShowsSomething (softRun options none text) := by
    rwa [showsSomething_iff, isBlankLine_softRun, ← showsSomething_iff]
  rw [run_eq]
  split
  · exact showsSomething_hardBreaks hsoft
  · exact hsoft

theorem run_eq_nil_iff (options : Options) : run options text = [] ↔ text = [] := by
  have hsoft : text.length ≤ (softRun options none text).length := by
    have hquoted : (if options.withSmartQuotes then curlQuotesAfter none text else text).length =
        text.length := by
      split
      · exact length_curlQuotesAfter none text
      · rfl
    have hescaped := length_le_length_escapeAfter none
      (if options.withSmartQuotes then curlQuotesAfter none text else text)
    rw [hquoted] at hescaped
    simp only [softRun]
    split
    · exact hescaped.trans (length_namedDashes _).1
    · exact hescaped
  have hbreaks : ∀ text, hardBreaks text = [] → text = [] := by
    intro text
    induction text using line_induction with
    | last line h => rw [hardBreaks_line h]; exact id
    | line line rest h ih =>
        rw [hardBreaks_line_append h]
        simp
  constructor
  · intro hempty
    have hnone : softRun options none text = [] := by
      rw [run_eq] at hempty
      split at hempty
      · exact hbreaks _ hempty
      · exact hempty
    rw [hnone] at hsoft
    exact List.length_eq_zero_iff.mp (Nat.le_zero.mp hsoft)
  · rintro rfl
    simp only [run]
    split <;> split <;> split <;> rfl

/-- A described link to a file or another resource shows where it leads and its description. -/
theorem link_described {context : Context} {render : Node → Rendering (List Char)} {node : Node}
    {type : LinkType} {path : String} {contents : List Char}
    (htype : type.isUrl = true ∨ type = .file) (h : ShowsSomething contents) :
    link context render node type path contents = pure
      ('[' :: externalTarget context.options type path.toList ++ [' '] ++ trim contents ++ [']']) := by
  obtain ⟨body, last, htrim, _⟩ := endsShown_trim (showsSomething_iff.mp h)
  have hshown : (trim contents).isEmpty = false := by simp [htrim]
  obtain hurl | rfl := htype
  · cases type with
    | http | https | ftp | mailto => simp [link, hshown, isImage, externalLink]
    | _ => cases hurl
  · simp [link, hshown, isImage, externalLink]

/-- A node whose format is settled by the markup of its children is rendered as that format. -/
theorem renderNode_run_of_format {context : Context} {node : Node} {text : Node → List Char}
    {markup : List Char} {depth : Nat} (hdescends : descends node.kind = true)
    (hchildren : ∀ child ∈ node.children, ∀ notes,
      (renderNode context depth child).run notes = some (text child, notes))
    (hformat : format context (renderNode context depth) node (node.children.flatMap text) =
      pure markup) (notes : Footnotes) :
    (renderNode context (depth + 1) node).run notes = some (withSpace node markup, notes) := by
  rw [renderNode, renderWith_eq, contentsOf, hdescends, Rendering.run_bind]
  simp only [if_true, renderAll_run hchildren, Option.bind_some, hformat]
  rfl

end Markup

namespace Node

/-- A text that is not blank, or any other node. -/
def IsShown (node : Node) : Prop :=
  ∀ value, node.kind = .plainText value → ShowsSomething value.toList

/-- Plain text, bold and italic runs, and links to other resources with a description, each with
nothing else in it. -/
inductive IsRunning : Node → Prop where
  | text {node : Node} {value : String} (kind : node.kind = .plainText value)
      (running : ∀ child ∈ node.children, IsRunning child) : IsRunning node
  | bold {node : Node} (kind : node.kind = .bold)
      (running : ∀ child ∈ node.children, IsRunning child) : IsRunning node
  | italic {node : Node} (kind : node.kind = .italic)
      (running : ∀ child ∈ node.children, IsRunning child) : IsRunning node
  | link {node : Node} {type : LinkType} {path : String} (kind : node.kind = .link type path)
      (isUrl : type.isUrl = true) (described : ∃ child ∈ node.children, child.IsShown)
      (running : ∀ child ∈ node.children, IsRunning child) : IsRunning node

/-- The markup of a node of running text, without the space after it. -/
def runningFormat (options : Options) (kind : Kind Node) (contents : List Char) :
    List Char :=
  match kind with
  | .plainText value => run options value.toList
  | .bold => "'''".toList ++ contents ++ "'''".toList
  | .italic => "''".toList ++ contents ++ "''".toList
  | .link _ path => '[' :: path.toList ++ [' '] ++ trim contents ++ [']']
  | _ => []

/-- The markup of running text. -/
def runningMarkup (options : Options) : Node → List Char :=
  fold fun node parts =>
    withSpace node (runningFormat options node.kind parts.children.flatten)

variable {context : Context} {options : Options} {node : Node}

theorem runningMarkup_eq (options : Options) (node : Node) :
    node.runningMarkup options =
      withSpace node
        (runningFormat options node.kind (node.children.flatMap (runningMarkup options))) := by
  rw [runningMarkup, fold_eq, List.flatMap_def]
  rfl

theorem IsRunning.running (h : node.IsRunning) : ∀ child ∈ node.children, child.IsRunning := by
  cases h with
  | text _ running | bold _ running | italic _ running | link _ _ _ running => exact running

theorem IsRunning.isBlock_eq (h : node.IsRunning) : node.kind.isBlock = false := by
  cases h with
  | text kind | bold kind | italic kind | link kind => rw [kind]; rfl

/-- Only a blank text has no markup but blanks. -/
theorem IsRunning.showsSomething (h : node.IsRunning) (hs : node.IsShown) (options : Options) :
    ShowsSomething (node.runningMarkup options) := by
  have hformat : ∀ contents, ShowsSomething (runningFormat options node.kind contents) := by
    intro contents
    cases h with
    | text kind => rw [kind]; exact showsSomething_run options (hs _ kind)
    | bold kind | italic kind => rw [kind]; exact ⟨'\'', List.mem_cons_self, rfl⟩
    | link kind => rw [kind]; exact ⟨'[', List.mem_cons_self, rfl⟩
  obtain ⟨c, hc, hblank⟩ := hformat (node.children.flatMap (runningMarkup options))
  rw [runningMarkup_eq, withSpace_of_inline h.isBlock_eq (List.ne_nil_of_mem hc)]
  exact ⟨c, List.mem_append_left _ hc, hblank⟩

/-- Running text is rendered as its markup, and gives no footnote a number. -/
theorem IsRunning.renderNode_run (h : node.IsRunning) {depth : Nat}
    (hdepth : node.walk.length ≤ depth) (notes : Footnotes) :
    (renderNode context depth node).run notes =
      some (node.runningMarkup context.options, notes) := by
  induction node using member_induction generalizing depth notes with
  | step node ih =>
      have hpos : 0 < node.walk.length := List.length_pos_of_mem node.mem_walk_self
      obtain ⟨below, rfl⟩ := Nat.exists_eq_succ_of_ne_zero (Nat.ne_zero_of_lt (hpos.trans_le hdepth))
      have hchildren : ∀ child ∈ node.children, ∀ notes, (renderNode context below child).run notes =
          some (child.runningMarkup context.options, notes) := by
        intro child hchild
        have hlt := length_walk_lt (mem_members_of_children hchild)
        exact ih child (mem_members_of_children hchild) (h.running child hchild) (by omega)
      rw [runningMarkup_eq]
      cases h with
      | text kind | bold kind | italic kind =>
          refine renderNode_run_of_format (by rw [kind]; rfl) hchildren ?_ notes
          simp only [format, kind, runningFormat]
      | link kind isUrl described running =>
          obtain ⟨child, hchild, hshown⟩ := described
          obtain ⟨c, hc, hblank⟩ :=
            (running child hchild).showsSomething hshown context.options
          have hcontents : ShowsSomething
              (node.children.flatMap (runningMarkup context.options)) :=
            ⟨c, List.mem_flatMap.mpr ⟨child, hchild, hc⟩, hblank⟩
          have hfile : ∀ {type : LinkType}, type.isUrl = true → type ≠ .file := by
            rintro _ hurl rfl
            cases hurl
          refine renderNode_run_of_format (by rw [kind]; rfl) hchildren ?_ notes
          simp only [format, kind, runningFormat, link_described (.inl isUrl) hcontents,
            externalTarget, if_neg (hfile isUrl)]

end Node

end OutlineWiki
