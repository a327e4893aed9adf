import OutlineWiki.Proofs.Rendering.RunningText
import OutlineWiki.Proofs.Text.ImageOpenings
import OutlineWiki.Proofs.Text.LineEnds

/-!
Exclamation marks before brackets in running text.

A run of text escapes an exclamation mark before a bracket, as long as both are its own. A mark at
its end is left loose, and what follows may start with a bracket: another run of text, or a link. So
a paragraph of running text opens an image just where that happens, or where the path of a link does,
which is shown as it is.
-/

namespace OutlineWiki

open Markup Text

namespace Node

/-- A text that ends in an exclamation mark, with no space after it. -/
def EndsInLooseMark (node : Node) : Prop :=
  (∃ value, node.kind = .plainText value ∧ value.toList.getLast? = some '!') ∧
    (node.postBlank.getD 0).toNat = 0

/-- A link, or a text that starts with a bracket. -/
def StartsWithBracket (node : Node) : Prop :=
  (∃ type path, node.kind = .link type path) ∨
    ∃ value, node.kind = .plainText value ∧ value.toList.head? = some '['

/-- A text without characters, which leaves no markup at all. -/
def IsEmptyText (node : Node) : Prop :=
  node.kind = .plainText ""

/-- Among nodes of running text, something is taken for the start of an image. -/
inductive HasLooseMark : List Node → Prop where
  /-- A bracket comes next after a loose mark. -/
  | across {before between after : List Node} {first second : Node}
      (mark : first.EndsInLooseMark) (empty : ∀ node ∈ between, node.IsEmptyText)
      (bracket : second.StartsWithBracket) :
      HasLooseMark (before ++ first :: (between ++ second :: after))
  /-- The path of a link opens an image by itself. -/
  | path {nodes : List Node} {node : Node} {type : LinkType} {path : String} (mem : node ∈ nodes)
      (kind : node.kind = .link type path) (opens : OpensImage path.toList) : HasLooseMark nodes
  | inside {nodes : List Node} {node : Node} (mem : node ∈ nodes)
      (shown : ∀ value, node.kind ≠ .plainText value) (held : HasLooseMark node.children) :
      HasLooseMark nodes

/-- A node opens an image by itself. -/
def OpensWithin (node : Node) : Prop :=
  (∃ type path, node.kind = .link type path ∧ OpensImage path.toList) ∨
    (∀ value, node.kind ≠ .plainText value) ∧ HasLooseMark node.children

/-- The first node with any markup starts with a bracket. -/
def LeadsWithBracket (nodes : List Node) : Prop :=
  ∃ empty second after, nodes = empty ++ second :: after ∧ (∀ node ∈ empty, node.IsEmptyText) ∧
    second.StartsWithBracket

variable {node : Node} {rest nodes : List Node} {reading : Reading}

theorem leadsWithBracket_cons_iff :
    LeadsWithBracket (node :: rest) ↔
      node.StartsWithBracket ∨ node.IsEmptyText ∧ LeadsWithBracket rest := by
  constructor
  · rintro ⟨empty, second, after, heq, hempty, hbracket⟩
    cases empty with
    | nil =>
        cases heq
        exact .inl hbracket
    | cons other empty =>
        cases heq
        obtain ⟨hnode, hempty⟩ := List.forall_mem_cons.mp hempty
        exact .inr ⟨hnode, empty, second, after, rfl, hempty, hbracket⟩
  · rintro (hbracket | ⟨hnode, empty, second, after, rfl, hempty, hbracket⟩)
    · exact ⟨[], node, rest, rfl, List.forall_mem_nil _, hbracket⟩
    · exact ⟨node :: empty, second, after, rfl, List.forall_mem_cons.mpr ⟨hnode, hempty⟩, hbracket⟩

theorem hasLooseMark_cons_iff :
    HasLooseMark (node :: rest) ↔
      node.OpensWithin ∨ (node.EndsInLooseMark ∧ LeadsWithBracket rest) ∨ HasLooseMark rest := by
  constructor
  · intro h
    generalize hnodes : node :: rest = nodes at h
    cases h with
    | @across before between after first second mark empty bracket =>
        cases before with
        | nil =>
            cases hnodes
            exact .inr (.inl ⟨mark, between, second, after, rfl, empty, bracket⟩)
        | cons other before =>
            cases hnodes
            exact .inr (.inr (.across mark empty bracket))
    | path mem kind opens =>
        subst hnodes
        obtain rfl | mem := List.mem_cons.mp mem
        · exact .inl (.inl ⟨_, _, kind, opens⟩)
        · exact .inr (.inr (.path mem kind opens))
    | inside mem shown held =>
        subst hnodes
        obtain rfl | mem := List.mem_cons.mp mem
        · exact .inl (.inr ⟨shown, held⟩)
        · exact .inr (.inr (.inside mem shown held))
  · rintro ((⟨type, path, kind, opens⟩ | ⟨shown, held⟩) |
      ⟨mark, empty, second, after, rfl, hempty, bracket⟩ | h)
    · exact .path List.mem_cons_self kind opens
    · exact .inside List.mem_cons_self shown held
    · exact @HasLooseMark.across [] empty after node second mark hempty bracket
    · cases h with
      | @across before between after first second mark empty bracket =>
          exact @HasLooseMark.across (node :: before) between after first second mark empty bracket
      | path mem kind opens => exact .path (List.mem_cons_of_mem _ mem) kind opens
      | inside mem shown held => exact .inside (List.mem_cons_of_mem _ mem) shown held

/-- What a reader knows after the markup of a node, before which nothing is escaped. -/
structure IsReadAfter (options : Options) (node : Node) (before : Reading) : Prop where
  opened : before.after (node.runningMarkup options) = .opened ↔
    node.OpensWithin ∨ before = .marked ∧ node.StartsWithBracket
  marked : before.after (node.runningMarkup options) ≠ .opened →
    (before.after (node.runningMarkup options) = .marked ↔
      node.EndsInLooseMark ∨ node.IsEmptyText ∧ before = .marked)
  unescaped : before.after (node.runningMarkup options) ≠ .escaped

/-- The nodes are read one after the other. -/
theorem after_flatMap_eq_opened_iff {options : Options}
    (h : ∀ node ∈ nodes, ∀ before, before = .plain ∨ before = .marked →
      node.IsReadAfter options before)
    {before : Reading} (hb : before = .plain ∨ before = .marked) :
    before.after (nodes.flatMap (runningMarkup options)) = .opened ↔
      HasLooseMark nodes ∨ before = .marked ∧ LeadsWithBracket nodes := by
  induction nodes generalizing before with
  | nil =>
      have hloose : ¬ HasLooseMark [] := fun hloose => by
        generalize hnodes : ([] : List Node) = nodes at hloose
        cases hloose with
        | across => simp at hnodes
        | path mem => exact List.not_mem_nil (hnodes ▸ mem)
        | inside mem => exact List.not_mem_nil (hnodes ▸ mem)
      have hleads : ¬ LeadsWithBracket [] := by
        rintro ⟨empty, second, after, heq, _⟩
        simp at heq
      obtain rfl | rfl := hb <;> simp [Reading.after, hloose, hleads]
  | cons node nodes ih =>
      obtain ⟨hnode, hrest⟩ := List.forall_mem_cons.mp h
      have hread := hnode before hb
      rw [List.flatMap_cons, Reading.after_append, hasLooseMark_cons_iff,
        leadsWithBracket_cons_iff]
      by_cases hopened : before.after (node.runningMarkup options) = .opened
      · rw [hopened, Reading.after_opened]
        have hcause := hread.opened.mp hopened
        grind
      · have hnext : before.after (node.runningMarkup options) = .plain ∨
            before.after (node.runningMarkup options) = .marked := by
          have hunescaped := hread.unescaped
          cases hafter : before.after (node.runningMarkup options) <;> simp_all
        have hmarked := hread.marked hopened
        have hnone := mt hread.opened.mpr hopened
        rw [ih hrest hnext, hmarked]
        grind

theorem isReadAfter_text {value : String} (kind : node.kind = .plainText value)
    (options : Options) {before : Reading} (hb : before = .plain ∨ before = .marked) :
    node.IsReadAfter options before := by
  have hwithin : ¬ node.OpensWithin := by
    rintro (⟨_, _, hlink, _⟩ | ⟨hother, _⟩)
    · cases kind.symm.trans hlink
    · exact hother value kind
  have hbracket : node.StartsWithBracket ↔ value.toList.head? = some '[' := by
    simp [StartsWithBracket, kind]
  have hempty : node.IsEmptyText ↔ value.toList = [] := by
    simp [IsEmptyText, kind]
  have hmark : node.EndsInLooseMark ↔
      value.toList.getLast? = some '!' ∧ (node.postBlank.getD 0).toNat = 0 := by
    simp [EndsInLooseMark, kind]
  have hformat : node.runningMarkup options = withSpace node (run options value.toList) := by
    rw [runningMarkup_eq, kind]
    rfl
  have hblock : node.kind.isBlock = false := by rw [kind]; rfl
  have hafter : before.after (node.runningMarkup options) =
      if before = .marked ∧ value.toList.head? = some '[' then .opened
      else if value.toList = [] then before
      else if value.toList.getLast? = some '!' ∧ (node.postBlank.getD 0).toNat = 0 then .marked
      else .plain := by
    by_cases hnone : value.toList = []
    · have hrun := (run_eq_nil_iff options).mpr hnone
      rw [hformat, withSpace_eq_nil_iff.mpr hrun]
      simp [hnone, Reading.after]
    · rw [hformat, withSpace_of_inline hblock (mt (run_eq_nil_iff options).mp hnone),
        Reading.after_append, after_run options hb, readingAfter, if_neg hnone]
      by_cases hcount : (node.postBlank.getD 0).toNat = 0
      · simp [hcount, Reading.after, hnone]
      · have hspaces : ∀ reading : Reading, reading ≠ .opened →
            reading.after (List.replicate (node.postBlank.getD 0).toNat ' ') = .plain := by
          intro reading
          apply Reading.after_of_isCalm
          · simpa using hcount
          · exact fun _ => isCalm_of_mem_replicate rfl
        split
        · exact Reading.after_opened _
        · split <;> simp [hspaces, hcount]
  refine ⟨?_, ?_, ?_⟩
  all_goals
    rw [hafter]
    obtain rfl | rfl := hb <;> grind

/-- Calm characters at the end of a markup, and the space after it, leave nothing but an image to
be kept in mind. -/
theorem after_withSpace_of_isCalm (hblock : node.kind.isBlock = false) {body tail : List Char}
    (hne : tail ≠ []) (htail : ∀ c ∈ tail, isCalm c = true) (before : Reading) :
    before.after (withSpace node (body ++ tail)) =
      if before.after body = .opened then .opened else .plain := by
  have hcalm : ∀ c ∈ tail ++ List.replicate (node.postBlank.getD 0).toNat ' ',
      isCalm c = true := by
    intro c hc
    obtain hc | hc := List.mem_append.mp hc
    · exact htail c hc
    · exact isCalm_of_mem_replicate rfl hc
  rw [withSpace_of_inline hblock (List.append_ne_nil_of_right_ne_nil _ hne), List.append_assoc]
  exact Reading.after_append_of_isCalm_right (List.append_ne_nil_of_left_ne_nil hne _) hcalm
    before body

/-- A node other than a text ends calmly, and opens an image within or by its bracket. -/
theorem isReadAfter_of_isCalm (hblock : node.kind.isBlock = false)
    (hshown : ∀ value, node.kind ≠ .plainText value) {options : Options} {body tail : List Char}
    (hformat : runningFormat options node.kind (node.children.flatMap (runningMarkup options)) =
      body ++ tail)
    (hne : tail ≠ []) (htail : ∀ c ∈ tail, isCalm c = true) {before : Reading}
    (hbody : before.after body = .opened ↔
      node.OpensWithin ∨ before = .marked ∧ node.StartsWithBracket) :
    node.IsReadAfter options before := by
  have hmark : ¬ node.EndsInLooseMark := fun ⟨⟨value, kind, _⟩, _⟩ => hshown value kind
  have hempty : ¬ node.IsEmptyText := hshown ""
  have hafter : before.after (withSpace node (body ++ tail)) = _ :=
    after_withSpace_of_isCalm hblock hne htail before
  rw [← hformat, ← runningMarkup_eq] at hafter
  refine ⟨?_, ?_, ?_⟩
  all_goals
    rw [hafter]
    grind

/-- A bold or italic run is read as its contents, with calm quotes around them. -/
theorem isReadAfter_quoted (hkind : node.kind = .bold ∨ node.kind = .italic) {options : Options}
    (hchildren : Reading.plain.after (node.children.flatMap (runningMarkup options)) = .opened ↔
      HasLooseMark node.children)
    {before : Reading} (hb : before = .plain ∨ before = .marked) :
    node.IsReadAfter options before := by
  obtain ⟨quotes, hne, hcalm, hformat⟩ : ∃ quotes : List Char, quotes ≠ [] ∧
      (∀ c ∈ quotes, isCalm c = true) ∧
        ∀ contents, runningFormat options node.kind contents = quotes ++ contents ++ quotes := by
    obtain hkind | hkind := hkind
    · exact ⟨"'''".toList, by decide, List.all_eq_true.mp rfl, fun _ => by rw [hkind]; rfl⟩
    · exact ⟨"''".toList, by decide, List.all_eq_true.mp rfl, fun _ => by rw [hkind]; rfl⟩
  have hshown : ∀ value, node.kind ≠ .plainText value := by
    intro value
    obtain hkind | hkind := hkind <;> simp [hkind]
  have hwithin : node.OpensWithin ↔ HasLooseMark node.children := by
    obtain hkind | hkind := hkind <;> simp [OpensWithin, hkind]
  have hbracket : ¬ node.StartsWithBracket := by
    obtain hkind | hkind := hkind <;> simp [StartsWithBracket, hkind]
  refine isReadAfter_of_isCalm ?_ hshown (hformat _) hne hcalm ?_
  · obtain hkind | hkind := hkind <;> rw [hkind] <;> rfl
  · rw [Reading.after_append_of_isCalm_left hne hcalm (by rintro rfl; simp at hb), hchildren]
    grind

theorem isReadAfter_link {type : LinkType} {path : String} (kind : node.kind = .link type path)
    {options : Options}
    (hchildren : Reading.plain.after (node.children.flatMap (runningMarkup options)) = .opened ↔
      HasLooseMark node.children)
    {before : Reading} (hb : before = .plain ∨ before = .marked) :
    node.IsReadAfter options before := by
  have hshown : ∀ value, node.kind ≠ .plainText value := by simp [kind]
  have hwithin : node.OpensWithin ↔ OpensImage path.toList ∨ HasLooseMark node.children := by
    simp [OpensWithin, kind]
  have hbracket : node.StartsWithBracket := .inl ⟨type, path, kind⟩
  have hformat : runningFormat options node.kind
      (node.children.flatMap (runningMarkup options)) =
        '[' :: (path.toList ++ [' '] ++ trim (node.children.flatMap (runningMarkup options))) ++
          [']'] := by
    rw [kind]
    simp [runningFormat]
  refine isReadAfter_of_isCalm (by rw [kind]; rfl) hshown hformat (by simp)
    (List.all_eq_true.mp rfl) ?_
  change (before.next '[').after _ = _ ↔ _
  obtain rfl | rfl := hb
  · change Reading.plain.after _ = _ ↔ _
    rw [Reading.after_append, Reading.after_append_of_isCalm_right (by simp)
      (List.all_eq_true.mp rfl),
      hwithin, opensImage_iff_after]
    split
    · next hpath => simp [hpath, Reading.after_opened]
    · next hpath => simp [hpath, Reading.after_trim_eq_opened_iff, hchildren]
  · change Reading.opened.after _ = _ ↔ _
    rw [Reading.after_opened]
    grind

theorem IsRunning.isReadAfter (h : node.IsRunning) (options : Options) {before : Reading}
    (hb : before = .plain ∨ before = .marked) : node.IsReadAfter options before := by
  induction node using member_induction generalizing before with
  | step node ih =>
      have hread : ∀ child ∈ node.children, ∀ before, before = .plain ∨ before = .marked →
          child.IsReadAfter options before := fun child hchild _ =>
        ih child (mem_members_of_children hchild) (h.running child hchild)
      have hchildren : Reading.plain.after (node.children.flatMap (runningMarkup options)) =
          .opened ↔ HasLooseMark node.children := by
        rw [after_flatMap_eq_opened_iff hread (.inl rfl)]
        simp
      cases h with
      | text kind => exact isReadAfter_text kind options hb
      | bold kind => exact isReadAfter_quoted (.inl kind) hchildren hb
      | italic kind => exact isReadAfter_quoted (.inr kind) hchildren hb
      | link kind => exact isReadAfter_link kind hchildren hb

end Node

section Paragraph

variable {context : Context} {node : Node}

/-- A hash sign opens no image, be it escaped or not. -/
theorem opensImage_paragraph_iff (children : List Node) (contents : List Char) :
    OpensImage (paragraph children contents) ↔ OpensImage contents := by
  rw [paragraph]
  split
  · next hhash =>
      rw [Bool.and_eq_true, beq_iff_eq] at hhash
      obtain ⟨rest, rfl⟩ := List.head?_eq_some_iff.mp hhash.2
      rw [opensImage_iff_after, opensImage_iff_after]
      rfl
  · rfl

theorem opensImage_withSpace_iff (hblock : node.kind.isBlock = true)
    (hdocument : node.kind.isDocument = false) (text : List Char) :
    OpensImage (withSpace node text) ↔ OpensImage text := by
  by_cases hempty : text = []
  · rw [hempty, withSpace_eq_nil_iff.mpr rfl]
  · obtain ⟨ends, hends, hdropped⟩ := exists_areLineEnds text
    have hcalm : ∀ c ∈ ends, isCalm c = true := fun c hc =>
      isCalm_of_isBlank (isBlank_of_isLineEndBlank (hdropped.isLineEndBlank_of_mem c hc))
    have hlines : ∀ c ∈ ['\n'] ++ List.replicate (node.postBlank.getD 0).toNat '\n',
        isCalm c = true := by
      intro c hc
      obtain rfl | hc := List.mem_cons.mp hc
      · rfl
      · exact isCalm_of_mem_replicate rfl hc
    rw [withSpace_of_isBlock hblock hdocument hempty, endLine, List.append_assoc,
      opensImage_iff_after, Reading.after_append_eq_opened_iff hlines, opensImage_iff_after]
    conv_rhs => rw [hends]
    exact (Reading.after_append_eq_opened_iff hcalm _ _).symm

/-- The markup of a paragraph of running text opens an image exactly when a loose mark in it has a
bracket next, or the path of a link opens one. -/
theorem renderNode_paragraph_opensImage (hkind : node.kind = .paragraph)
    (hrunning : ∀ child ∈ node.children, child.IsRunning) {depth : Nat}
    (hdepth : node.walk.length ≤ depth) (notes : Footnotes) :
    ∃ output, (renderNode context depth node).run notes = some (output, notes) ∧
      (OpensImage output ↔ Node.HasLooseMark node.children) := by
  have hpos : 0 < node.walk.length := List.length_pos_of_mem node.mem_walk_self
  obtain ⟨below, rfl⟩ := Nat.exists_eq_succ_of_ne_zero (Nat.ne_zero_of_lt (hpos.trans_le hdepth))
  have hchildren : ∀ child ∈ node.children, ∀ notes, (renderNode context below child).run notes =
      some (child.runningMarkup context.options, notes) := by
    intro child hchild
    have hlt := Node.length_walk_lt (Node.mem_members_of_children hchild)
    exact (hrunning child hchild).renderNode_run (by omega)
  have hformat : format context (renderNode context below) node
      (node.children.flatMap (Node.runningMarkup context.options)) =
        pure (paragraph node.children
          (node.children.flatMap (Node.runningMarkup context.options))) := by
    simp only [format, hkind]
  refine ⟨_, renderNode_run_of_format (by rw [hkind]; rfl) hchildren hformat notes, ?_⟩
  rw [opensImage_withSpace_iff (by rw [hkind]; rfl) (by rw [hkind]; rfl),
    opensImage_paragraph_iff, opensImage_iff_after, Node.after_flatMap_eq_opened_iff
      (fun child hchild _ hb => (hrunning child hchild).isReadAfter context.options hb) (.inl rfl)]
  simp

/-- In a document, a paragraph of plain text, bold and italic runs and described links is always
rendered, whatever the options. An exclamation mark and a bracket that open an image come up in its
markup exactly when a text ends in a mark and the next markup starts with a bracket, or when the path
of a link holds them. -/
theorem paragraph_opensImage_iff (root : Node) (context : Context)
    (hindex : context.index = Index.ofTree root.prepare) {node : Node}
    (hnode : node ∈ root.prepare.walk) (hkind : node.kind = .paragraph)
    (hrunning : ∀ child ∈ node.children, child.IsRunning) (notes : Footnotes) :
    ∃ output, (context.render node).run notes = some (output, notes) ∧
      (OpensImage output ↔ Node.HasLooseMark node.children) := by
  apply renderNode_paragraph_opensImage hkind hrunning
  rw [Context.depth, hindex, Index.size_ofTree]
  exact (Node.walk_sublist_of_mem hnode).length_le

end Paragraph

/-- A text ends in an exclamation mark, and after a text without characters a link comes next. -/
def Node.exclaimed : Node :=
  .document [.paragraph
    [.ofValue "wow!", .ofValue "", .link .http "example.com" (some "X")]]

theorem paragraph_opensImage_iff_exclaimed :
    let context := Context.ofTree Node.exclaimed.prepare {} []
    let paragraph := (Node.exclaimed.prepare.walk[1]?).getD default
    paragraph ∈ Node.exclaimed.prepare.walk ∧ paragraph.kind = .paragraph ∧
      (∀ child ∈ paragraph.children, child.IsRunning) ∧
      (context.render paragraph).run {} = some ("wow![example.com X]\n\n".toList, {}) ∧
      OpensImage "wow![example.com X]\n\n".toList ∧ Node.HasLooseMark paragraph.children := by
  intro context paragraph
  have hmem : paragraph ∈ Node.exclaimed.prepare.walk :=
    List.mem_of_getElem? (show Node.exclaimed.prepare.walk[1]? = some paragraph from rfl)
  have htext : ∀ {node : Node} {value : String}, node.kind = .plainText value →
      node.children = [] → node.IsRunning := fun hkind hleaf =>
    .text hkind (hleaf ▸ List.forall_mem_nil _)
  have hrunning : ∀ child ∈ paragraph.children, child.IsRunning := by
    refine List.forall_mem_cons.mpr ⟨htext rfl rfl, List.forall_mem_cons.mpr ⟨htext rfl rfl,
      List.forall_mem_singleton.mpr ?_⟩⟩
    refine .link rfl rfl ⟨_, List.mem_singleton_self _, fun value hvalue => ?_⟩
      (List.forall_mem_singleton.mpr (htext rfl rfl))
    cases hvalue
    exact ⟨'X', by decide, rfl⟩
  obtain ⟨output, hrun, hopens⟩ :=
    paragraph_opensImage_iff Node.exclaimed context rfl hmem rfl hrunning {}
  have hshown : ((context.render paragraph).run {}).map Prod.fst =
      some "wow![example.com X]\n\n".toList := by decide +kernel
  rw [hrun] at hshown
  obtain rfl := Option.some.inj hshown
  have himage : OpensImage "wow![example.com X]\n\n".toList :=
    ⟨"wow".toList, "example.com X]\n\n".toList, by decide, by decide⟩
  exact ⟨hmem, rfl, hrunning, hrun, himage, hopens.mp himage⟩

end OutlineWiki
