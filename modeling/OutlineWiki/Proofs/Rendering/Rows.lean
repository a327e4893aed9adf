import OutlineWiki.Proofs.Outline.Walk
import OutlineWiki.Proofs.Rendering.ItemRows
import OutlineWiki.Proofs.Rendering.Paragraph

/-!
Rows of nested lists.

Lists that hold nothing but items, paragraphs and further lists are shown row by row in
document order. A row has the bullets of all lists around it, the outermost first, and behind
them a line of a paragraph, the mark of an item, or both. The rows are told here from the top
down, without any text that is split into lines again.
-/

namespace OutlineWiki

open Text Markup

namespace Entry

/-- The line of text in an entry, if there is one. -/
def line? : Entry → Option (List Char)
  | .text line | .marked _ line => some line
  | .alone _ => none

/-- The mark in an entry, if there is one. -/
def mark? : Entry → Option (List Char)
  | .text _ => none
  | .marked mark _ | .alone mark => some mark

variable (mark : Option (List Char)) (lines : List (List Char))

theorem filterMap_line?_lead : (lead mark lines).filterMap line? = lines := by
  have htexts : ∀ rest : List (List Char), (rest.map text).filterMap line? = rest := by
    intro rest
    rw [List.filterMap_map]
    exact List.filterMap_some
  cases mark with
  | none => exact htexts lines
  | some mark =>
      cases lines with
      | nil => rfl
      | cons line rest => exact congrArg (List.cons line) (htexts rest)

theorem filterMap_mark?_lead : (lead mark lines).filterMap mark? = mark.toList := by
  have htexts : ∀ rest : List (List Char), (rest.map text).filterMap mark? = [] := by
    intro rest
    rw [List.filterMap_map]
    exact List.filterMap_eq_nil_iff.mpr fun _ _ => rfl
  cases mark with
  | none => exact htexts lines
  | some mark =>
      cases lines with
      | nil => rfl
      | cons line rest => exact congrArg (List.cons mark) (htexts rest)

/-- Entries end in what is not blank when the mark and the lines are not blank. -/
theorem shown_of_mem_lead (hmark : ∀ text ∈ mark, '\n' ∉ text ∧ isBlankLine text = false)
    (hlines : ∀ line ∈ lines, '\n' ∉ line ∧ isBlankLine line = false) :
    ∀ entry ∈ lead mark lines, '\n' ∉ entry.shown ∧ EndsShown entry.shown := by
  have htexts : ∀ rest ⊆ lines, ∀ entry ∈ rest.map text,
      '\n' ∉ entry.shown ∧ EndsShown entry.shown := by
    intro rest hrest entry hentry
    obtain ⟨line, hline, rfl⟩ := List.mem_map.mp hentry
    obtain ⟨hnewline, hshown⟩ := hlines line (hrest hline)
    exact ⟨newline_notMem_trimEnd hnewline, endsShown_trimEnd hshown⟩
  cases mark with
  | none => exact htexts lines (List.Subset.refl lines)
  | some mark =>
      obtain ⟨hnewline, hshown⟩ := hmark mark rfl
      cases lines with
      | nil =>
          refine List.forall_mem_singleton.mpr ?_
          exact ⟨newline_notMem_trimEnd hnewline, endsShown_trimEnd hshown⟩
      | cons line rest =>
          obtain ⟨hline, hends⟩ := hlines line List.mem_cons_self
          refine List.forall_mem_cons.mpr ⟨⟨fun hmem => ?_, ?_⟩,
            htexts rest (List.subset_cons_self line rest)⟩
          · exact (List.mem_append.mp hmem).elim hnewline (newline_notMem_trim hline)
          · exact (endsShown_trim hends).append_left mark

end Entry

structure Row where
  bullets : List Char
  entry : Entry

namespace Row

def text (row : Row) : List Char :=
  row.bullets ++ ' ' :: row.entry.shown

/-- The row with further bullets before its own. -/
def under (outer : List Char) (row : Row) : Row :=
  { row with bullets := outer ++ row.bullets }

end Row

/-- The lines that a paragraph of plain text shows. -/
def Node.paragraphLines (options : Options) (node : Node) : List (List Char) :=
  shownLines (withSpace node (plainParagraph options node.children))

/-- The children of an item before its first list. -/
def Node.leading (node : Node) : List Node :=
  node.children.takeWhile fun child => !child.kind.isPlainList

/-- The children of an item from its first list on. -/
def Node.trailing (node : Node) : List Node :=
  node.children.dropWhile fun child => !child.kind.isPlainList

/-- The rows of a node in a nest of lists, given the bullets of the lists around it. -/
def Node.nestRows (options : Options) : Node → List Char → List Row :=
  fold fun node parts bullets =>
    match node.kind with
    | .plainList type => parts.children.flatMap fun rows => rows (bullets ++ [bullet type])
    | .listItem checkbox _ =>
      (Entry.lead (itemMark checkbox none) (node.leading.flatMap (paragraphLines options))).map
          (Row.mk bullets) ++
        (parts.children.drop node.leading.length).flatMap fun rows => rows bullets
    | .paragraph => (node.paragraphLines options).map fun line => ⟨bullets, .text line⟩
    | _ => []

/-- The lists, items and paragraphs of a nest in document order. -/
def Node.nestNodes : Node → List Node :=
  fold fun node parts =>
    match node.kind with
    | .paragraph => [node]
    | _ => node :: parts.children.flatten

/-- The lines that a node of a nest has of its own. -/
def Node.ownLines (options : Options) (node : Node) : List (List Char) :=
  match node.kind with
  | .paragraph => node.paragraphLines options
  | _ => []

/-- The mark that a node of a nest has, if it is an item with a checkbox. -/
def Node.ownMark? (node : Node) : Option (List Char) :=
  match node.kind with
  | .listItem checkbox _ => itemMark checkbox none
  | _ => none

/-- Lists of items without tags, which hold paragraphs of plain text and further such lists. -/
inductive Node.IsNested : Node → Prop
  | list {node : Node} {type : ListType} (kind : node.kind = .plainList type)
      (items : ∀ item ∈ node.children, ∃ checkbox, item.kind = .listItem checkbox none)
      (nested : ∀ item ∈ node.children, item.IsNested) : node.IsNested
  | item {node : Node} {checkbox : Checkbox} (kind : node.kind = .listItem checkbox none)
      (held : ∀ child ∈ node.children,
        child.kind = .paragraph ∨ ∃ type, child.kind = .plainList type)
      (nested : ∀ child ∈ node.children, child.IsNested) : node.IsNested
  | paragraph {node : Node} (kind : node.kind = .paragraph)
      (texts : ∀ child ∈ node.children, ∃ value, child.kind = .plainText value) : node.IsNested

namespace Node

variable {options : Options} {node : Node}

theorem nestRows_plainList {type : ListType} (kind : node.kind = .plainList type)
    (bullets : List Char) :
    node.nestRows options bullets =
      node.children.flatMap fun item => item.nestRows options (bullets ++ [bullet type]) := by
  rw [nestRows, fold_eq]
  simp only [kind, parts, Parts.map, List.flatMap_map]

theorem leading_append_trailing (node : Node) : node.leading ++ node.trailing = node.children :=
  List.takeWhile_append_dropWhile

theorem trailing_subset (node : Node) : node.trailing ⊆ node.children :=
  (List.dropWhile_suffix _).subset

theorem nestRows_listItem {checkbox : Checkbox} {tag : Option (List Node)}
    (kind : node.kind = .listItem checkbox tag) (bullets : List Char) :
    node.nestRows options bullets =
      (Entry.lead (itemMark checkbox none) (node.leading.flatMap (paragraphLines options))).map
          (Row.mk bullets) ++
        node.trailing.flatMap fun child => child.nestRows options bullets := by
  have hdrop : node.children.drop node.leading.length = node.trailing := by
    rw [← node.leading_append_trailing, List.drop_left]
  rw [nestRows, fold_eq]
  simp only [kind, parts, Parts.map, ← List.map_drop, List.flatMap_map, hdrop]

theorem nestRows_paragraph (kind : node.kind = .paragraph) (bullets : List Char) :
    node.nestRows options bullets =
      (node.paragraphLines options).map fun line => ⟨bullets, .text line⟩ := by
  rw [nestRows, fold_eq]
  simp only [kind]

/-- Further bullets around a nest stand before those of its own lists. -/
theorem IsNested.nestRows_append (h : node.IsNested) (outer bullets : List Char) :
    node.nestRows options (outer ++ bullets) =
      (node.nestRows options bullets).map (Row.under outer) := by
  induction h generalizing bullets with
  | list kind items nested ih =>
      rw [nestRows_plainList kind, nestRows_plainList kind, List.map_flatMap]
      refine List.flatMap_congr fun item hitem => ?_
      rw [List.append_assoc, ih item hitem]
  | item kind held nested ih =>
      rw [nestRows_listItem kind, nestRows_listItem kind, List.map_append, List.map_map,
        List.map_flatMap]
      refine congrArg₂ _ rfl (List.flatMap_congr fun child hchild => ?_)
      exact ih child (trailing_subset _ hchild) bullets
  | paragraph kind texts =>
      rw [nestRows_paragraph kind, nestRows_paragraph kind, List.map_map]
      rfl

theorem shown_of_mem_itemMark {checkbox : Checkbox} :
    ∀ mark ∈ itemMark checkbox none, '\n' ∉ mark ∧ isBlankLine mark = false := by
  cases checkbox with
  | none => exact fun _ hmark => by cases hmark
  | on | off | partly =>
      rintro _ ⟨⟩
      decide

/-- A row ends in what is not blank, and has no newline in it. -/
theorem IsNested.nestRows_shown (h : node.IsNested) {bullets : List Char}
    (hbullets : '\n' ∉ bullets) :
    ∀ row ∈ node.nestRows options bullets, '\n' ∉ row.text ∧ EndsShown row.text := by
  have hentry : ∀ (bullets : List Char) (entry : Entry), '\n' ∉ bullets →
      '\n' ∉ entry.shown ∧ EndsShown entry.shown →
        '\n' ∉ (Row.mk bullets entry).text ∧ EndsShown (Row.mk bullets entry).text := by
    intro bullets entry hbullets ⟨hnewline, hends⟩
    refine ⟨?_, (hends.append_left [' ']).append_left bullets⟩
    simp [Row.text, hbullets, hnewline]
  induction h generalizing bullets with
  | @list node type kind items nested ih =>
      intro row hrow
      rw [nestRows_plainList kind] at hrow
      obtain ⟨item, hitem, hrow⟩ := List.mem_flatMap.mp hrow
      refine ih item hitem (fun hmem => ?_) row hrow
      exact (List.mem_append.mp hmem).elim hbullets
        (List.not_mem_cons_of_ne_of_not_mem (bullet_ne_newline type).symm List.not_mem_nil)
  | item kind held nested ih =>
      intro row hrow
      rw [nestRows_listItem kind] at hrow
      obtain hlead | hrest := List.mem_append.mp hrow
      · obtain ⟨entry, hmem, rfl⟩ := List.mem_map.mp hlead
        refine hentry bullets entry hbullets (Entry.shown_of_mem_lead _ _ shown_of_mem_itemMark
          (fun line hline => ?_) entry hmem)
        obtain ⟨paragraph, _, hline⟩ := List.mem_flatMap.mp hline
        exact of_mem_shownLines hline
      · obtain ⟨child, hchild, hrow⟩ := List.mem_flatMap.mp hrest
        exact ih child (trailing_subset _ hchild) hbullets row hrow
  | paragraph kind texts =>
      intro row hrow
      rw [nestRows_paragraph kind] at hrow
      obtain ⟨line, hline, rfl⟩ := List.mem_map.mp hrow
      obtain ⟨hnewline, hshown⟩ := of_mem_shownLines hline
      exact hentry bullets (.text line) hbullets
        ⟨newline_notMem_trimEnd hnewline, endsShown_trimEnd hshown⟩

theorem nestNodes_of_paragraph (kind : node.kind = .paragraph) : node.nestNodes = [node] := by
  rw [nestNodes, fold_eq]
  simp only [kind]

theorem nestNodes_of_ne (kind : node.kind ≠ .paragraph) :
    node.nestNodes = node :: node.children.flatMap nestNodes := by
  rw [nestNodes, fold_eq, List.flatMap_def]
  split
  · next hkind => exact absurd hkind kind
  · rfl

/-- What is taken from the entries of a nest is what its nodes have of it, in document order. -/
theorem IsNested.filterMap_nestRows {β : Type} {take : Entry → Option β} {own : Node → List β}
    (hlist : ∀ (list : Node) (type : ListType), list.kind = .plainList type → own list = [])
    (hitem : ∀ (item : Node) (checkbox : Checkbox) (lead : List Node),
      item.kind = .listItem checkbox none → (∀ child ∈ lead, child.kind = .paragraph) →
        (Entry.lead (itemMark checkbox none) (lead.flatMap (paragraphLines options))).filterMap
          take = own item ++ lead.flatMap own)
    (hparagraph : ∀ paragraph : Node, paragraph.kind = .paragraph →
      (paragraph.paragraphLines options).filterMap (fun line => take (.text line)) =
        own paragraph)
    (h : node.IsNested) (bullets : List Char) :
    (node.nestRows options bullets).filterMap (fun row => take row.entry) =
      node.nestNodes.flatMap own := by
  have hne : ∀ {node : Node} {type : ListType}, node.kind = .plainList type →
      node.kind ≠ .paragraph := fun kind heq => by cases kind.symm.trans heq
  induction h generalizing bullets with
  | list kind items nested ih =>
      rw [nestRows_plainList kind, nestNodes_of_ne (hne kind), List.flatMap_cons, hlist _ _ kind,
        List.nil_append, List.filterMap_flatMap, List.flatMap_assoc]
      exact List.flatMap_congr fun item hitem => ih item hitem _
  | @item node checkbox kind held nested ih =>
      have hlead : ∀ child ∈ node.leading, child.kind = .paragraph := by
        intro child hchild
        refine (held child ((List.takeWhile_prefix _).subset hchild)).resolve_right ?_
        rintro ⟨type, htype⟩
        have hnot := List.mem_takeWhile_imp hchild
        rw [htype] at hnot
        cases hnot
      have hsingle : node.leading.flatMap nestNodes = node.leading := by
        rw [List.flatMap_congr fun child hchild => nestNodes_of_paragraph (hlead child hchild)]
        exact List.flatMap_singleton' _
      have hsplit : node.children.flatMap nestNodes =
          node.leading ++ node.trailing.flatMap nestNodes := by
        rw [← node.leading_append_trailing, List.flatMap_append, hsingle]
      rw [nestRows_listItem kind, nestNodes_of_ne (fun heq => by cases kind.symm.trans heq), hsplit,
        List.filterMap_append, List.filterMap_map, List.flatMap_cons, List.flatMap_append,
        List.filterMap_flatMap, List.flatMap_assoc, ← List.append_assoc,
        ← hitem node checkbox _ kind hlead]
      refine congrArg₂ _ rfl (List.flatMap_congr fun child hchild => ?_)
      exact ih child (trailing_subset _ hchild) bullets
  | paragraph kind texts =>
      rw [nestRows_paragraph kind, nestNodes_of_paragraph kind, List.filterMap_map,
        List.flatMap_singleton]
      exact hparagraph _ kind

theorem IsNested.filterMap_line? (h : node.IsNested) (bullets : List Char) :
    (node.nestRows options bullets).filterMap (·.entry.line?) =
      node.nestNodes.flatMap (ownLines options) := by
  refine filterMap_nestRows (fun list type kind => ?_) (fun item checkbox lead kind hlead => ?_)
    (fun paragraph kind => ?_) h bullets
  · rw [ownLines, kind]
  · rw [Entry.filterMap_line?_lead, ownLines, kind, List.nil_append]
    refine List.flatMap_congr fun child hchild => ?_
    rw [ownLines, hlead child hchild]
  · rw [ownLines, kind]
    exact List.filterMap_some

theorem IsNested.filterMap_mark? (h : node.IsNested) (bullets : List Char) :
    (node.nestRows options bullets).filterMap (·.entry.mark?) =
      node.nestNodes.flatMap fun node => node.ownMark?.toList := by
  refine filterMap_nestRows (fun list type kind => ?_) (fun item checkbox lead kind hlead => ?_)
    (fun paragraph kind => ?_) h bullets
  · rw [ownMark?, kind]
    rfl
  · have hnone : (lead.flatMap fun child => child.ownMark?.toList) = [] := by
      refine List.flatMap_eq_nil_iff.mpr fun child hchild => ?_
      rw [ownMark?, hlead child hchild]
      rfl
    rw [Entry.filterMap_mark?_lead, ownMark?, kind, hnone, List.append_nil]
  · rw [ownMark?, kind]
    exact List.filterMap_eq_nil_iff.mpr fun _ _ => rfl

end Node

end OutlineWiki
