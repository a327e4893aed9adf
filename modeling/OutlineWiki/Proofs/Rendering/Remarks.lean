import OutlineWiki.Proofs.Outline.Openings
import OutlineWiki.Proofs.Rendering.Images

/-!
Remarks leave no trace.

Comments and nodes of unknown kinds have no markup, whatever they hold. A remark may be put in
between blocks wherever blocks are shown one after another. Although all nodes behind it get
other numbers and one of its references may be the first one in the tree, nothing in the
markup tells that it is there.
-/

namespace OutlineWiki
namespace Node

/-- Text with its fonts and references to footnotes, which do not give a text themselves. -/
def isRun (node : Node) : Bool :=
  match node.kind with
  | .plainText _ | .bold | .italic => true
  | .footnoteReference _ => node.children.isEmpty
  | _ => false

theorem isRun_iff {node : Node} :
    node.isRun = true ↔ (∃ value, node.kind = .plainText value) ∨ node.kind = .bold ∨
      node.kind = .italic ∨ ∃ label, node.kind = .footnoteReference label ∧ node.children = [] := by
  rw [isRun]
  cases node.kind <;> simp

theorem isSimple_of_isRun {node : Node} (h : node.isRun = true) : node.kind.isSimple = true := by
  obtain ⟨_, hk⟩ | hk | hk | ⟨_, hk, _⟩ := isRun_iff.mp h
  all_goals
    rw [hk]
    rfl

theorem definesFootnote_of_isRun {node : Node} (h : node.isRun = true) (label : String) :
    node.definesFootnote label = false := by
  refine Bool.eq_false_iff.mpr fun hd => ?_
  obtain hk | ⟨hk, hchildren⟩ := definesFootnote_iff.mp hd
  · rw [isRun, hk] at h
    cases h
  · rw [isRun, hk] at h
    exact hchildren (List.isEmpty_iff.mp h)

/-- A comment or a node of unknown kind over runs of text that nothing leads to. -/
structure IsRemark (node : Node) : Prop where
  kind : node.kind = .comment ∨ node.kind = .unknown
  plain : ∀ inner ∈ node.walk, inner.name = none ∧ inner.caption = none
  runs : ∀ inner ∈ node.descendants, inner.isRun = true

namespace IsRemark

variable {node : Node} (h : node.IsRemark)
include h

theorem isSilent : node.kind.isSilent = true := by
  obtain hk | hk := h.kind
  all_goals
    rw [hk]
    rfl

theorem unnoticed {inner : Node} (hi : inner ∈ node.walk) : inner.Unnoticed := by
  refine ⟨(h.plain inner hi).1, (h.plain inner hi).2, ?_⟩
  obtain rfl | hbelow := mem_walk_iff.mp hi
  · obtain hk | hk := h.kind
    all_goals
      rw [hk]
      rfl
  · exact isSimple_of_isRun (h.runs inner hbelow)

theorem lacksText (label : String) : node.LacksText label := by
  intro inner hi
  obtain rfl | hbelow := mem_walk_iff.mp hi
  · rw [definesFootnote]
    obtain hk | hk := h.kind
    all_goals rw [hk]
  · exact definesFootnote_of_isRun (h.runs inner hbelow) label

end IsRemark

/-- A tree that has markup keeps it when a remark is put in. -/
theorem wikiMarkup_remark {remark root grown : Node} {options : Options} {text : List Char}
    (hr : remark.IsRemark) (h : Inserted remark root grown)
    (htext : root.wikiMarkup? options = some text) :
    grown.wikiMarkup? options = some text := by
  have himage : ∃ image extra, Image (fun label => label) image extra root [] grown :=
    h.exists_image hr.isSilent (fun inner hi => hr.unnoticed hi) (List.nil_subset _)
      fun label => .inl (hr.lacksText label)
  obtain ⟨image, extra, himage⟩ := himage
  have hlt := h.length_walk_lt
  rw [wikiMarkup?_eq] at htext ⊢
  rw [← (Image.self root).exportWithin_eq himage options [] (.inr hlt)]
  obtain ⟨⟨_, final⟩, hrun, rfl⟩ := Option.map_eq_some_iff.mp htext
  -- The remark makes the tree larger, so that its export may go deeper.
  have hmore := Context.exportWithin_extends (Context.ofTree root.prepare options [])
    (Nat.le_of_lt hlt) (Nat.succ_le_succ (Nat.le_of_lt hlt)) root.prepare {} _ hrun
  exact Option.map_eq_some_iff.mpr ⟨_, hmore, rfl⟩

end Node

section

open Node (document paragraph headline ofValue ofKind footnoteReference footnoteDefinition)

/-- A headline over a list with the given items. -/
def Node.listedNotes (items : List Node) : Node :=
  document
    [headline 1 "Notes" [ofKind (.plainList .ordered) items],
      footnoteDefinition "first" [paragraph [ofValue "text"]]]

def Node.listedItem : Node :=
  ofKind (.listItem .none none) [paragraph [ofValue "item", footnoteReference "first"]]

/-- A comment that refers to a footnote before anything else does. -/
def Node.hiddenNote : Node :=
  ofKind .comment [ofKind .bold [ofValue "hidden"], footnoteReference "second"]

theorem Node.isRemark_hiddenNote : Node.hiddenNote.IsRemark := by
  have hplain : ∀ inner ∈ Node.hiddenNote.walk,
      inner.name.isNone = true ∧ inner.caption.isNone = true := by
    decide +kernel
  refine ⟨.inl rfl, fun inner hi => ?_, by decide +kernel⟩
  exact ⟨Option.isNone_iff_eq_none.mp (hplain inner hi).1,
    Option.isNone_iff_eq_none.mp (hplain inner hi).2⟩

theorem wikiMarkup_remark_hidden :
    let root := Node.listedNotes [.listedItem, .listedItem]
    let grown := Node.listedNotes [.listedItem, .hiddenNote, .listedItem]
    let text := ("= Notes =\n# item<sup>1</sup>\n# item<sup>1</sup>\n\n" ++
      "== Footnotes ==\n\n[1] text\n").toList
    Node.hiddenNote.IsRemark ∧ Node.Inserted Node.hiddenNote root grown ∧
      root.wikiMarkup? {} = some text ∧ grown.wikiMarkup? {} = some text := by
  intro root grown text
  have hinserted : Node.Inserted Node.hiddenNote root grown := by
    refine @Node.Inserted.inside _ _ _ _ [] _ rfl rfl ?_
    refine @Node.Inserted.inside _ _ _ _ [] _ rfl rfl ?_
    exact @Node.Inserted.among _ _ [Node.listedItem] _ rfl rfl (by decide +kernel)
  have hroot : root.wikiMarkup? {} = some text := by decide +kernel
  exact ⟨Node.isRemark_hiddenNote, hinserted, hroot,
    Node.wikiMarkup_remark Node.isRemark_hiddenNote hinserted hroot⟩

end

end OutlineWiki
