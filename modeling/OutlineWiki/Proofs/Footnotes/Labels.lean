import Mathlib.Data.Set.Function
import OutlineWiki.Proofs.Outline.Renaming
import OutlineWiki.Proofs.Rendering.Images

/-!
The labels of footnotes do not show.

Labels decide which references share a footnote, and which text it has. They are only ever
compared with each other, so any other labels that keep different ones apart give the same
markup.
-/

namespace OutlineWiki

namespace Node

/-- The labels of the references to footnotes and of their texts in a tree. -/
def labels (root : Node) : List String :=
  root.walk.filterMap label?

theorem labels_eq (root : Node) :
    root.labels = (root.walk.map surface).filterMap Surface.label? := by
  rw [List.filterMap_map]
  exact List.filterMap_congr fun node _ => (label?_surface node).symm

theorem labels_prepare (root : Node) : root.prepare.labels = root.labels := by
  rw [labels_eq, labels_eq, walk_surface_prepare]

theorem mem_labels {root node : Node} {label : String} (hn : node ∈ root.walk)
    (hl : node.label? = some label) : label ∈ root.labels :=
  List.mem_filterMap.mpr ⟨node, hn, hl⟩

end Node

/-- A tree with other labels is an image of the tree if these keep its labels apart. -/
theorem Image.relabel {f : String → String} {root : Node}
    (h : Set.InjOn f {label | label ∈ root.labels}) :
    Image f (Node.relabel f) (fun _ => False) root [] (root.relabel f) where
  root_eq := (Node.prepare_relabel f root).symm
  grown := .faithful (Node.faithful_relabel f _)
  extra _ hnode := hnode.elim
  piece _ hp := by cases hp
  number node hn other ho := by
    rw [Node.walkWith_nil] at hn ho
    rw [Node.relabel_eq, Node.relabel_eq]
    exact ⟨Node.eq_of_id_eq hn ho, fun hid => hid⟩
  label node hn label hl other ho another ha := by
    rw [Node.walkWith_nil] at hn ho
    refine @h label ?_ another ?_
    · exact root.labels_prepare ▸ Node.mem_labels hn hl
    · exact root.labels_prepare ▸ Node.mem_labels ho ha
  definition node hn label hl := by
    rw [Node.walkWith_nil] at hn ⊢
    have hmem : ∀ {inner : Node} {own : String}, inner ∈ root.prepare.walk →
        inner.label? = some own → own ∈ root.labels :=
      fun hi ho => root.labels_prepare ▸ Node.mem_labels hi ho
    rw [Index.definition?_eq_find?, Node.prepare_relabel, (Node.faithful_relabel f _).walk,
      List.find?_map]
    refine congrArg (Option.map _) ?_
    rw [← List.head?_filter, ← List.head?_filter]
    refine congrArg List.head? (List.filter_congr fun inner hi => ?_)
    exact (Node.faithful_relabel f inner).definesFootnote label fun own ho heq =>
      h (hmem hi ho) (hmem hn hl) heq

/-- Other labels that keep the labels of a tree apart leave the markup of the tree as it is. -/
theorem Node.wikiMarkup_relabel (root : Node) (options : Options) (f : String → String)
    (h : Set.InjOn f {label | label ∈ root.labels}) :
    (root.relabel f).wikiMarkup? options = root.wikiMarkup? options := by
  have hsize : (root.relabel f).prepare.walk.length = root.prepare.walk.length := by
    rw [prepare_relabel, (faithful_relabel f _).walk, List.length_map]
  rw [wikiMarkup?_eq, wikiMarkup?_eq, hsize]
  exact (Image.relabel h).exportWithin_eq (Image.self root) options []
    (.inl ⟨faithful_relabel f _, faithful_self _⟩) _

section

open Node (document paragraph ofValue ofKind footnoteReference footnoteDefinition)

/-- A footnote whose text is given twice, and another one that refers to it. -/
def Node.rivalNotes : Node :=
  document
    [paragraph
        [ofValue "x", footnoteReference "first",
          ofKind (.footnoteReference (some "second")) [ofValue "inline"]],
      footnoteDefinition "second" [paragraph [ofValue "late"]],
      footnoteDefinition "first" [paragraph [ofValue "see", footnoteReference "second"]]]

/-- Exchanges two labels, and takes any other one to the first of them. -/
def exchanged (label : String) : String :=
  if label = "first" then "second" else "first"

theorem wikiMarkup_relabel_exchanged :
    Set.InjOn exchanged {label | label ∈ Node.rivalNotes.labels} ∧
      (Node.rivalNotes.relabel exchanged).wikiMarkup? {} = Node.rivalNotes.wikiMarkup? {} ∧
      Node.rivalNotes.wikiMarkup? {} =
        some ("x<sup>1</sup><sup>, </sup><sup>2</sup>\n\n== Footnotes ==\n\n" ++
          "[1] see<sup>2</sup>\n\n[2] inline\n").toList := by
  have hlabels : Node.rivalNotes.labels = ["first", "second", "second", "first", "second"] := by
    decide +kernel
  have hinj : Set.InjOn exchanged {label | label ∈ Node.rivalNotes.labels} := by
    have hall : ∀ label ∈ Node.rivalNotes.labels, ∀ other ∈ Node.rivalNotes.labels,
        exchanged label = exchanged other → label = other := by
      rw [hlabels]
      decide
    exact fun label hl other ho => hall label hl other ho
  exact ⟨hinj, Node.wikiMarkup_relabel Node.rivalNotes {} exchanged hinj, by decide +kernel⟩

end

end OutlineWiki
