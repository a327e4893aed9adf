import OutlineWiki.Proofs.Rendering.Remarks

/-!
The text of a footnote may stand anywhere.

A definition has no markup where it stands, and the section of footnotes finds it by its label.
So it may be moved to any other place between blocks, as long as it is the only text of its
footnote and holds nothing else that a link may lead to. The anonymous references in it and
those behind it are told apart by other numbers then, but in the same order.
-/

namespace OutlineWiki
namespace Node

/-- The text of the footnote with the label as paragraphs of runs that nothing leads to. -/
structure IsPlainText (label : String) (node : Node) : Prop where
  kind : node.kind = .footnoteDefinition label
  plain : ∀ inner ∈ node.walk, inner.name = none ∧ inner.caption = none
  paragraphs : ∀ child ∈ node.children, child.kind = .paragraph ∧
    ∀ inner ∈ child.descendants, inner.isRun = true

namespace IsPlainText

variable {label : String} {node : Node} (h : node.IsPlainText label)
include h

theorem descendants {inner : Node} (hi : inner ∈ node.descendants) :
    inner.kind = .paragraph ∨ inner.isRun = true := by
  have hmembers : node.members = node.children := by
    rw [members_eq, h.kind, (h.plain node node.mem_walk_self).2]
    rfl
  rw [Node.descendants, hmembers] at hi
  obtain ⟨child, hc, hin⟩ := List.mem_flatMap.mp hi
  obtain ⟨hkind, hruns⟩ := h.paragraphs child hc
  obtain rfl | hbelow := mem_walk_iff.mp hin
  · exact .inl hkind
  · exact .inr (hruns inner hbelow)

theorem unnoticed {inner : Node} (hi : inner ∈ node.walk) : inner.Unnoticed := by
  refine ⟨(h.plain inner hi).1, (h.plain inner hi).2, ?_⟩
  obtain rfl | hbelow := mem_walk_iff.mp hi
  · rw [h.kind]
    rfl
  · obtain hk | hrun := h.descendants hbelow
    · rw [hk]
      rfl
    · exact isSimple_of_isRun hrun

theorem definesFootnote_descendants {inner : Node} (hi : inner ∈ node.descendants)
    (other : String) : inner.definesFootnote other = false := by
  obtain hk | hrun := h.descendants hi
  · rw [definesFootnote, hk]
  · exact definesFootnote_of_isRun hrun other

end IsPlainText

/-- A tree with the only text of a footnote is an image of the tree without it and of the text
beside it. -/
theorem IsPlainText.exists_image {label : String} {text base tree : Node}
    (ht : text.IsPlainText label) (hb : ∀ node ∈ base.walk, ¬ node.Defines label)
    (h : Inserted text base tree) :
    ∃ image extra, Image (fun label => label) image extra base [base.detached text] tree := by
  have hsilent : text.kind.isSilent = true := by
    rw [ht.kind]
    rfl
  refine h.exists_image hsilent (fun inner hi => ht.unnoticed hi) (List.Subset.refl _)
    fun other => ?_
  obtain rfl | hne := eq_or_ne other label
  · refine .inr ⟨rfl, fun node hn => ?_, ?_, fun inner hi => ht.definesFootnote_descendants hi _⟩
    · exact Bool.eq_false_iff.mpr fun hd => hb node hn (definesFootnote_iff.mp hd)
    · exact definesFootnote_iff.mpr (.inl ht.kind)
  · refine .inl fun inner hi => ?_
    obtain rfl | hbelow := mem_walk_iff.mp hi
    · rw [definesFootnote, ht.kind]
      exact beq_false_of_ne hne.symm
    · exact ht.definesFootnote_descendants hbelow other

/-- Trees that hold the only text of a footnote in different places have the same markup. -/
theorem wikiMarkup_moved {label : String} {text base tree moved : Node} (options : Options)
    (ht : text.IsPlainText label) (hb : ∀ node ∈ base.walk, ¬ node.Defines label)
    (h : Inserted text base tree) (hm : Inserted text base moved) :
    moved.wikiMarkup? options = tree.wikiMarkup? options := by
  obtain ⟨image, extra, himage⟩ := ht.exists_image hb h
  obtain ⟨other, more, hother⟩ := ht.exists_image hb hm
  rw [wikiMarkup?_eq, wikiMarkup?_eq, hm.length_walk_prepare, ← h.length_walk_prepare]
  exact hother.exportWithin_eq himage options [] (.inr h.length_walk_lt) _

end Node

section

open Node (document paragraph headline ofValue ofKind footnoteReference footnoteDefinition)

/-- The text of a footnote that refers to two more footnotes. -/
def Node.nestingText : Node :=
  footnoteDefinition "first"
    [paragraph [ofValue "see", ofKind (.footnoteReference none) [], ofValue " and",
      footnoteReference "second"]]

theorem Node.isPlainText_nestingText : Node.nestingText.IsPlainText "first" := by
  have hplain : ∀ inner ∈ Node.nestingText.walk,
      inner.name.isNone = true ∧ inner.caption.isNone = true := by
    decide +kernel
  refine ⟨rfl, fun inner hi => ?_, fun child hc => ?_⟩
  · exact ⟨Option.isNone_iff_eq_none.mp (hplain inner hi).1,
      Option.isNone_iff_eq_none.mp (hplain inner hi).2⟩
  · obtain rfl := List.mem_singleton.mp hc
    exact ⟨rfl, by decide +kernel⟩

/-- A reference to a footnote below a headline, with the text of another footnote. -/
def Node.notedSection (before after : List Node) : Node :=
  document
    (before ++
      [headline 1 "Notes" (paragraph [footnoteReference "first"] :: after),
        footnoteDefinition "second" [paragraph [ofValue "more"]]])

theorem wikiMarkup_moved_nesting :
    let base := Node.notedSection [] []
    let tree := Node.notedSection [Node.nestingText] []
    let moved := Node.notedSection [] [Node.nestingText]
    Node.nestingText.IsPlainText "first" ∧ (∀ node ∈ base.walk, ¬ node.Defines "first") ∧
      Node.Inserted Node.nestingText base tree ∧ Node.Inserted Node.nestingText base moved ∧
      moved.wikiMarkup? {} = tree.wikiMarkup? {} ∧
      tree.wikiMarkup? {} = some ("= Notes =\n<sup>1</sup>\n\n== Footnotes ==\n\n" ++
        "[1] see<sup>2</sup> and<sup>3</sup>\n\n[3] more\n").toList := by
  intro base tree moved
  have hbase : ∀ node ∈ base.walk, node.definesFootnote "first" = false := by decide +kernel
  have hother : ∀ node ∈ base.walk, ¬ node.Defines "first" := fun node hn hd =>
    Bool.eq_false_iff.mp (hbase node hn) (Node.definesFootnote_iff.mpr hd)
  have htree : Node.Inserted Node.nestingText base tree :=
    @Node.Inserted.among _ _ [] _ rfl rfl (by decide +kernel)
  have hmoved : Node.Inserted Node.nestingText base moved := by
    refine @Node.Inserted.inside _ _ _ _ [] _ rfl rfl ?_
    exact @Node.Inserted.among _ _ [paragraph [footnoteReference "first"]] _ rfl rfl
      (by decide +kernel)
  exact ⟨Node.isPlainText_nestingText, hother, htree, hmoved,
    Node.wikiMarkup_moved {} Node.isPlainText_nestingText hother htree hmoved, by decide +kernel⟩

end

end OutlineWiki
