import OutlineWiki.Export
import OutlineWiki.Outline.Build
import OutlineWiki.Proofs.Outline.Lookups
import OutlineWiki.Proofs.Rendering.Stability
import OutlineWiki.Proofs.Text.Shown

/-!
Tables cell by cell.

Each cell asks the index for its place in its row and for the table of the row, and then
whether the first column of that table only marks the rows. The answer depends on the table
alone. So either all rows show all their cells, or none of them shows its first cell, and
this goes for rules and for rows of any length. What ends a row as a block only touches the
line ends of its last cell.
-/

namespace OutlineWiki

open Rendering

namespace Node

/-- All rows of the table are rows of cells, and no cell has space after it. -/
structure IsGrid (table : Node) : Prop where
  row : ∀ row ∈ table.children, ∃ type, row.kind = .tableRow type
  cell : ∀ row ∈ table.children, ∀ cell ∈ row.children,
    cell.kind = .tableCell ∧ cell.postBlank.getD 0 = 0

/-- The text of a cell that marks its row. -/
def IsMarker (text : List Char) : Prop :=
  ∃ c ∈ ['#', '!', '$', '*', '_', '^', '/'], text = [c]

/-- A row that is not a rule starts with the cell. -/
def StartsRow (table cell : Node) : Prop :=
  ∃ row ∈ table.children, row.kind = .tableRow .standard ∧ row.children.head? = some cell

/-- The cells that rows start with are blank or markers, and at least one is a marker. -/
def MarksRows (table : Node) : Prop :=
  (∀ cell, table.StartsRow cell →
    Text.isBlankLine cell.plainText = true ∨ IsMarker (Text.trim cell.plainText)) ∧
    ∃ cell, table.StartsRow cell ∧ IsMarker (Text.trim cell.plainText)

theorem mem_firstColumn_iff {table : Node} {text : List Char} :
    text ∈ table.firstColumn ↔ ∃ cell, table.StartsRow cell ∧ Text.trim cell.plainText = text := by
  have hstandard : ∀ row : Node, row.isStandardRow = true ↔ row.kind = .tableRow .standard := by
    intro row
    rw [isStandardRow]
    split
    · next kind => exact iff_of_true rfl kind
    · next kind => exact iff_of_false Bool.false_ne_true kind
  simp only [firstColumn, standardRows, StartsRow, List.mem_filterMap, List.mem_filter, hstandard,
    Option.map_eq_some_iff]
  constructor
  · rintro ⟨row, ⟨hrow, hkind⟩, cell, hcell, rfl⟩
    exact ⟨cell, ⟨row, hrow, hkind, hcell⟩, rfl⟩
  · rintro ⟨cell, ⟨row, hrow, hkind, hcell⟩, rfl⟩
    exact ⟨row, ⟨hrow, hkind⟩, cell, hcell, rfl⟩

theorem contains_columnMarkers_iff {text : List Char} :
    columnMarkers.contains text = true ↔ text = [] ∨ IsMarker text := by
  simp [columnMarkers, IsMarker]

theorem hasMarkingColumn_iff {table : Node} :
    table.hasMarkingColumn = true ↔ table.MarksRows := by
  rw [hasMarkingColumn, Bool.and_eq_true, List.all_eq_true, List.any_eq_true]
  constructor
  · rintro ⟨hall, text, htext, hshown⟩
    have hcell : ∀ cell, table.StartsRow cell →
        Text.trim cell.plainText = [] ∨ IsMarker (Text.trim cell.plainText) := fun cell hstarts =>
      contains_columnMarkers_iff.mp (hall _ (mem_firstColumn_iff.mpr ⟨cell, hstarts, rfl⟩))
    obtain ⟨cell, hstarts, rfl⟩ := mem_firstColumn_iff.mp htext
    refine ⟨fun cell hstarts => (hcell cell hstarts).imp_left Text.trim_eq_nil_iff.mp,
      cell, hstarts, (hcell cell hstarts).resolve_left fun hnil => ?_⟩
    rw [hnil] at hshown
    cases hshown
  · rintro ⟨hall, cell, hstarts, hmarker⟩
    refine ⟨fun text htext => ?_, _, mem_firstColumn_iff.mpr ⟨cell, hstarts, rfl⟩, ?_⟩
    · obtain ⟨cell, hstarts, rfl⟩ := mem_firstColumn_iff.mp htext
      exact contains_columnMarkers_iff.mpr
        ((hall cell hstarts).imp_left Text.trim_eq_nil_iff.mpr)
    · obtain ⟨c, _, htext⟩ := hmarker
      rw [htext]
      rfl

end Node

namespace Markup

open Text

/-- The lines of a row with the texts of its cells. What ends the row drops the line ends of the
last of them. -/
def cellLines : List (List Char) → List Char
  | [] => []
  | [text] => '|' :: endLine text
  | text :: next :: texts => '|' :: text ++ '\n' :: cellLines (next :: texts)

/-- The markup of a row that shows cells with the texts. -/
def rowLines (row : Node) (texts : List (List Char)) : List Char :=
  "|-\n".toList ++ cellLines texts ++ List.replicate (row.postBlank.getD 0).toNat '\n'

/-- A cell with the text, on a line of its own. -/
def cellLine (text : List Char) : List Char :=
  '|' :: text ++ ['\n']

/-- The end of a row leaves all cells as they are but the last. -/
theorem endLine_cells (before text : List Char) (texts : List (List Char)) :
    endLine (before ++ (text :: texts).flatMap cellLine) = before ++ cellLines (text :: texts) := by
  induction texts generalizing before text with
  | nil =>
      rw [List.flatMap_cons, List.flatMap_nil, List.append_nil, cellLine, List.cons_append, endLine,
        dropLineEnds_append_cons (by decide), dropLineEnds_append _ areLineEnds_newline,
        List.append_assoc]
      rfl
  | cons next texts ih =>
      rw [List.flatMap_cons, ← List.append_assoc, ih, cellLines, cellLine, List.append_assoc,
        List.cons_append, List.cons_append, List.append_assoc]
      rfl

theorem withSpace_tableRow {row : Node} {type : RowType} (kind : row.kind = .tableRow type)
    (texts : List (List Char)) :
    withSpace row (tableRow (texts.flatMap cellLine)) = rowLines row texts := by
  have hlines : endLine (tableRow (texts.flatMap cellLine)) = "|-\n".toList ++ cellLines texts := by
    cases texts with
    | nil => rfl
    | cons text texts => exact endLine_cells _ text texts
  have hb : row.kind.isBlock = true := by rw [kind]; rfl
  have hd : row.kind.isDocument = false := by rw [kind]; rfl
  have hm : tableRow (texts.flatMap cellLine) ≠ [] := List.cons_ne_nil _ _
  rw [withSpace_of_isBlock hb hd hm, hlines, rowLines]

theorem withSpace_tableCell {cell : Node} (kind : cell.kind = .tableCell)
    (h : cell.postBlank.getD 0 = 0) (markup : List Char) : withSpace cell markup = markup := by
  rw [withSpace, kind, h]
  split
  · rfl
  · exact List.append_nil markup

/-- What a table shows around its rows ends in what is not blank. -/
theorem withSpace_table {table : Node} {type : TableType} {value : Option String}
    (kind : table.kind = .table type value) (name : Option String) (caption : Option (List Char))
    (contents : List Char) :
    withSpace table (tableMarkup name caption contents) =
      tableMarkup name caption contents ++
        '\n' :: List.replicate (table.postBlank.getD 0).toNat '\n' := by
  have hb : table.kind.isBlock = true := by rw [kind]; rfl
  have hd : table.kind.isDocument = false := by rw [kind]; rfl
  have hends : EndsShown (tableMarkup name caption contents) :=
    ⟨_, '\x7d', (List.append_assoc _ ['\n', '|'] ['\x7d']).symm, by decide⟩
  rw [withSpace_of_isBlock hb hd, endLine, dropLineEnds_of_endsShown hends, List.append_assoc]
  · rfl
  · exact fun hnil => List.cons_ne_nil _ _ (List.append_eq_nil_iff.mp hnil).1

section Cells

variable {render : Node → Rendering (List Char)}

/-- Nodes that are each rendered in two steps are rendered by all first steps, one after another. -/
theorem renderAll_eq_mapM {α : Type} {nodes : List Node} {first : Node → Rendering α}
    {second : α → List Char}
    (h : ∀ node ∈ nodes, render node = do
      let found ← first node
      return second found) :
    renderAll render nodes = do
      let found ← nodes.mapM first
      return found.flatMap second := by
  induction nodes with
  | nil => rfl
  | cons node nodes ih =>
      obtain ⟨hnode, hnodes⟩ := List.forall_mem_cons.mp h
      simp only [renderAll, hnode, ih hnodes, List.mapM_cons, bind_assoc, pure_bind,
        List.flatMap_cons]

end Cells

section Rows

variable {root table row : Node} (options : Options) (externalIds : List (String × String))

theorem isMarkingCell_eq (ht : table ∈ root.prepare.walk) (hrow : row ∈ table.children)
    {before after : List Node} {cell : Node} (hcell : row.children = before ++ cell :: after) :
    isMarkingCell (Context.ofTree root.prepare options externalIds) cell =
      (before.isEmpty && table.hasMarkingColumn) := by
  obtain ⟨above, below, hrows⟩ := List.append_of_mem hrow
  have hplace := Index.lookups_of_mem_lists ht (hrows ▸ table.children_mem_lists)
  have hmem : row ∈ root.prepare.walk :=
    Node.mem_walk_trans (Node.mem_walk_of_mem_members (Node.mem_members_of_children hrow)) ht
  have hcells := Index.lookups_of_mem_lists hmem (hcell ▸ row.children_mem_lists)
  have hindex : (Context.ofTree root.prepare options externalIds).index =
    Index.ofTree root.prepare := rfl
  rw [isMarkingCell, hindex, hcells.1, hcells.2.1, Option.bind_some, hplace.1]
  cases before <;> rfl

/-- The texts of the cells of a row, given how the nodes in them are rendered. -/
def cellTexts (render : Node → Rendering (List Char)) (row : Node) : Rendering (List (List Char)) :=
  row.children.mapM fun cell => renderAll render cell.children

theorem renderNode_tableCell {context : Context} {cell : Node} (kind : cell.kind = .tableCell)
    (h : cell.postBlank.getD 0 = 0) (depth : Nat) :
    renderNode context (depth + 1) cell = do
      let text ← renderAll (renderNode context depth) cell.children
      return if isMarkingCell context cell then [] else cellLine text := by
  have hformat : ∀ contents, format context (renderNode context depth) cell contents =
      pure (tableCell context cell contents) := fun contents => by rw [format, kind]
  rw [renderNode, renderWith_eq, contentsOf, kind]
  simp only [hformat, pure_bind, withSpace_tableCell kind h]
  rfl

/-- Every row leaves out its first cell if the table has a column that marks the rows. -/
theorem renderNode_tableRow (ht : table ∈ root.prepare.walk) (hgrid : table.IsGrid)
    (hrow : row ∈ table.children) (depth : Nat) :
    let context := Context.ofTree root.prepare options externalIds
    renderNode context (depth + 2) row = do
      let texts ← cellTexts (renderNode context depth) row
      return rowLines row (texts.drop (if table.hasMarkingColumn then 1 else 0)) := by
  intro context
  obtain ⟨type, kind⟩ := hgrid.row row hrow
  have hcell := hgrid.cell row hrow
  have hformat : ∀ contents, format context (renderNode context (depth + 1)) row contents =
      pure (tableRow contents) := fun contents => by rw [format, kind]
  have hdescends : descends row.kind = true := by rw [kind]; rfl
  rw [renderNode, renderWith_eq, contentsOf, if_pos hdescends, cellTexts]
  simp only [hformat, pure_bind]
  cases hcells : row.children with
  | nil =>
      simp only [renderAll, List.mapM_nil, pure_bind, List.drop_nil]
      exact congrArg pure (withSpace_tableRow kind [])
  | cons first rest =>
      rw [hcells] at hcell
      obtain ⟨⟨hkind, hpost⟩, hrest⟩ := List.forall_mem_cons.mp hcell
      have hfirst : row.children = [] ++ first :: rest := hcells
      have hmarks := isMarkingCell_eq options externalIds ht hrow hfirst
      have hothers : renderAll (renderNode context (depth + 1)) rest = do
          let texts ← rest.mapM fun cell => renderAll (renderNode context depth) cell.children
          return texts.flatMap cellLine := by
        refine renderAll_eq_mapM fun cell hmem => ?_
        obtain ⟨before, after, rfl⟩ := List.append_of_mem hmem
        have hlater : row.children = (first :: before) ++ cell :: after := hcells
        have hplain := isMarkingCell_eq options externalIds ht hrow hlater
        rw [renderNode_tableCell (hrest cell hmem).1 (hrest cell hmem).2, hplain]
        rfl
      rw [renderAll, renderNode_tableCell hkind hpost, hmarks, hothers]
      simp only [bind_assoc, pure_bind, List.mapM_cons]
      refine bind_congr fun text => bind_congr fun texts => congrArg pure ?_
      cases table.hasMarkingColumn with
      | true => exact withSpace_tableRow kind texts
      | false => exact withSpace_tableRow kind (text :: texts)

/-- A table with its caption around rows that leave out some of their first cells. -/
def gridMarkup (context : Context) (inner outer : Node → Rendering (List Char)) (skipped : Nat)
    (table : Node) : Rendering (List Char) := do
  let rows ← table.children.mapM fun row => do
    let texts ← cellTexts inner row
    return rowLines row (texts.drop skipped)
  let caption ← renderCaption outer table.shownCaption?
  return tableMarkup context.options.defaultTableClass caption rows.flatten ++
    '\n' :: List.replicate (table.postBlank.getD 0).toNat '\n'

theorem renderNode_table {value : Option String} (kind : table.kind = .table .rows value)
    (depth : Nat) :
    let context := Context.ofTree root.prepare options externalIds
    renderNode context (depth + 1) table = do
      let contents ← renderAll (renderNode context depth) table.children
      let caption ← renderCaption (renderNode context depth) table.shownCaption?
      return tableMarkup options.defaultTableClass caption contents ++
        '\n' :: List.replicate (table.postBlank.getD 0).toNat '\n' := by
  intro context
  have hformat : ∀ contents, format context (renderNode context depth) table contents = do
      let caption ← renderCaption (renderNode context depth) table.shownCaption?
      return tableMarkup options.defaultTableClass caption contents := fun contents => by
    rw [format, kind]
    rfl
  have hdescends : descends table.kind = true := by rw [kind]; rfl
  rw [renderNode, renderWith_eq, contentsOf, if_pos hdescends]
  simp only [hformat, bind_assoc, pure_bind, withSpace_table kind]

theorem renderAll_rows (ht : table ∈ root.prepare.walk) (hgrid : table.IsGrid) (depth : Nat) :
    let context := Context.ofTree root.prepare options externalIds
    renderAll (renderNode context (depth + 2)) table.children = do
      let rows ← table.children.mapM fun row => do
        let texts ← cellTexts (renderNode context depth) row
        return rowLines row (texts.drop (if table.hasMarkingColumn then 1 else 0))
      return rows.flatten := by
  intro context
  rw [renderAll_eq_mapM fun row hrow =>
    (renderNode_tableRow options externalIds ht hgrid hrow depth).trans (bind_pure _).symm]
  exact bind_congr fun rows => congrArg pure List.flatMap_id

/-- Either all rows of a table leave out their first cell or none does, and all other cells are
shown one after another. -/
theorem gridTable_rendered (root : Node) (options : Options)
    (externalIds : List (String × String)) {table : Node} {value : Option String}
    (ht : table ∈ root.prepare.walk) (kind : table.kind = .table .rows value)
    (hgrid : table.IsGrid) :
    let context := Context.ofTree root.prepare options externalIds
    ∃ skipped, (table.MarksRows → skipped = 1) ∧ (¬ table.MarksRows → skipped = 0) ∧
      (∀ row ∈ table.children, ∀ depth, renderNode context (depth + 2) row = do
        let texts ← cellTexts (renderNode context depth) row
        return rowLines row (texts.drop skipped)) ∧
      (∀ depth, renderNode context (depth + 3) table =
        gridMarkup context (renderNode context depth) (renderNode context (depth + 2)) skipped
          table) ∧
      ∀ depth, Extends (renderNode context depth table)
        (gridMarkup context (renderNode context depth) (renderNode context depth) skipped table) := by
  intro context
  refine ⟨if table.hasMarkingColumn then 1 else 0, fun hmarks => ?_, fun hmarks => ?_,
    fun row hrow depth => renderNode_tableRow options externalIds ht hgrid hrow depth,
    fun depth => ?_, fun depth => ?_⟩
  · rw [if_pos (Node.hasMarkingColumn_iff.mpr hmarks)]
  · rw [if_neg fun hcolumn => hmarks (Node.hasMarkingColumn_iff.mp hcolumn)]
  · rw [renderNode_table options externalIds kind, renderAll_rows options externalIds ht hgrid,
      gridMarkup]
    simp only [bind_assoc, pure_bind]
    rfl
  · cases depth with
    | zero => intro notes result hrun; cases hrun
    | succ depth =>
        -- The rows come to an end within more depth, where they are known cell by cell.
        have hrows : Extends (renderAll (renderNode context depth) table.children)
            (renderAll (renderNode context (depth + 1 + 2)) table.children) :=
          renderAll_rel .extends fun row _ => renderNode_extends context (by omega) row
        have hcaption : Extends (renderCaption (renderNode context depth) table.shownCaption?)
            (renderCaption (renderNode context (depth + 1)) table.shownCaption?) :=
          renderCaption_rel .extends fun nodes _ node _ =>
            renderNode_extends context (Nat.le_succ depth) node
        rw [renderAll_rows options externalIds ht hgrid] at hrows
        have hall := extends_bind hrows fun contents _ =>
          extends_bind hcaption fun caption _ => extends_pure
            (tableMarkup options.defaultTableClass caption contents ++
              '\n' :: List.replicate (table.postBlank.getD 0).toNat '\n')
        simp only [bind_assoc, pure_bind] at hall
        rw [renderNode_table options externalIds kind]
        exact hall

end Rows

end Markup

section

open Node (document ofKind ofValue)

/-- A row of cells with the texts. -/
def Node.rowOf (type : RowType) (texts : List String) : Node :=
  ofKind (.tableRow type) (texts.map fun text => ofKind .tableCell [ofValue text])

/-- A table whose first column marks rows of all kinds and lengths. -/
def Node.markedTable : Node :=
  document
    [ofKind (.table .rows none)
      [.rowOf .standard ["!", "name"], .rowOf .rule ["a", "b"], .rowOf .standard [],
        .rowOf .standard ["", "alice", "x"], .rowOf .rule []]]

def Node.markedMarkup : String :=
  "\x7b| class=wikitable\n\n\n|-\n|name\n|-\n|b\n|-\n|-\n|alice\n|x\n|-\n\n|\x7d\n\n"

theorem Kind.eq_tableRow_of_bare {α β : Type} {kind : Kind α} {type : RowType}
    (h : (kind.bare : Kind β) = .tableRow type) : kind = .tableRow type := by
  cases kind <;> cases h
  rfl

theorem Kind.eq_tableCell_of_bare {α β : Type} {kind : Kind α}
    (h : (kind.bare : Kind β) = .tableCell) : kind = .tableCell := by
  cases kind <;> cases h
  rfl

theorem gridTable_rendered_marked :
    let tree := Node.markedTable.prepare
    let table := tree.children.headD default
    let context := Context.ofTree tree {} []
    table.IsGrid ∧ table.MarksRows ∧
      ((Markup.gridMarkup context context.render context.render 1 table).run {}).map (·.1) =
        some Node.markedMarkup.toList := by
  intro tree table context
  have ht : table ∈ tree.walk :=
    Node.mem_walk_of_mem_members (Node.mem_members_of_children (List.mem_cons_self (l := [])))
  have kind : table.kind = .table .rows none := rfl
  have hrows : ∀ row ∈ table.children, (row.kind.bare : Kind Unit) = .tableRow .standard ∨
      (row.kind.bare : Kind Unit) = .tableRow .rule := by
    decide +kernel
  have hcells : ∀ row ∈ table.children, ∀ cell ∈ row.children,
      (cell.kind.bare : Kind Unit) = .tableCell ∧ cell.postBlank.getD 0 = 0 := by
    decide +kernel
  have hgrid : table.IsGrid := by
    refine ⟨fun row hrow => ?_, fun row hrow cell hcell => ?_⟩
    · exact (hrows row hrow).elim (fun hkind => ⟨_, Kind.eq_tableRow_of_bare hkind⟩)
        fun hkind => ⟨_, Kind.eq_tableRow_of_bare hkind⟩
    · exact (hcells row hrow cell hcell).imp_left Kind.eq_tableCell_of_bare
  have hmarks : table.MarksRows := Node.hasMarkingColumn_iff.mp (by decide +kernel)
  have hresult : ((context.render table).run {}).map (·.1) = some Node.markedMarkup.toList := by
    decide +kernel
  obtain ⟨⟨text, final⟩, hrun, rfl⟩ := Option.map_eq_some_iff.mp hresult
  obtain ⟨skipped, hskipped, _, _, _, hextends⟩ :=
    Markup.gridTable_rendered Node.markedTable {} [] ht kind hgrid
  obtain rfl := hskipped hmarks
  exact ⟨hgrid, hmarks, Option.map_eq_some_iff.mpr ⟨_, hextends context.depth {} _ hrun, rfl⟩⟩

end

end OutlineWiki
