import OutlineWiki.Export
import OutlineWiki.Outline.Build
import OutlineWiki.Proofs.Rendering.Comparison
import OutlineWiki.Proofs.Text.Rewriting

/-!
Paragraphs of plain text.

A run of text escapes the hash signs that come first on its own lines, except at its start,
where it cannot know whether it starts a line. The paragraph only escapes a hash sign at its
own start. So the hash signs of a paragraph are guarded, except where a later run starts with
one just after a newline or after runs without any markup.

To tell this, the markup of a run is taken without the guards, which the steps that replace
dashes and dots and make hard breaks do not mind.
-/

namespace OutlineWiki.Markup

open OutlineWiki.Text

/-- Puts a backslash before each active character other than a hash sign. -/
def escapeMarks : List Char → List Char
  | [] => []
  | c :: rest =>
    (if isActive none c rest.head? then ['\\', c] else [c]) ++ escapeMarks rest

/-- The markup of a run of text with no hash sign escaped. -/
def bareRun (options : Options) (text : List Char) : List Char :=
  let quoted := if options.withSmartQuotes then curlQuotes text else text
  let escaped := escapeMarks quoted
  let special := if options.withSpecialStrings then namedDashes escaped else escaped
  if options.preserveBreaks then hardBreaks special else special

theorem isActive_hash (previous next : Option Char) :
    isActive previous '#' next = (previous == some '\n') := by
  simp [isActive]

theorem isActive_of_ne {c : Char} (hc : c ≠ '#') (previous next : Option Char) :
    isActive previous c next = isActive none c next := by
  simp [isActive, hc]

theorem escapeAfter_eq_guardHashes (previous : Option Char) (text : List Char) :
    escapeAfter previous text = guardHashes (previous == some '\n') (escapeMarks text) := by
  induction text generalizing previous with
  | nil => rfl
  | cons c text ih =>
      rw [escapeAfter, escapeMarks, ih]
      by_cases hc : c = '#'
      · subst hc
        rw [isActive_hash, isActive_hash]
        cases previous == some '\n' <;> rfl
      · rw [isActive_of_ne hc]
        split
        · have hrest := guardHashes_cons_of_ne hc false (escapeMarks text)
          have hmark : ∀ start more, guardHashes start ('\\' :: more) =
              '\\' :: guardHashes false more :=
            fun start more => guardHashes_cons_of_ne (by decide) start more
          exact ((hmark _ _).trans (congrArg _ hrest)).symm
        · exact (guardHashes_cons_of_ne hc _ _).symm

theorem escape_eq_guardHashes (text : List Char) :
    escape text = guardHashes false (escapeMarks text) :=
  escapeAfter_eq_guardHashes none text

theorem namedDashes_guardHashes (atStart : Bool) (text : List Char) :
    namedDashes (guardHashes atStart text) = guardHashes atStart (namedDashes text) := by
  simp only [namedDashes]
  rw [replaceAll_guardHashes, replaceAll_guardHashes, replaceAll_guardHashes]
  all_goals decide

theorem hardBreaks_line {line : List Char} (h : '\n' ∉ line) : hardBreaks line = line := by
  rw [hardBreaks, splitOn_of_notMem h]
  rfl

theorem hardBreaks_line_append {line : List Char} (h : '\n' ∉ line) (rest : List Char) :
    hardBreaks (line ++ '\n' :: rest) =
      dropTrailing isIndent line ++ [' ', ' ', '\n'] ++ hardBreaks rest := by
  rw [hardBreaks, splitOn_append_mark h]
  exact joinHard.eq_3 line (splitOn '\n' rest) (splitOn_ne_nil '\n' rest)

theorem hardBreaks_guardHashes (atStart : Bool) (text : List Char) :
    hardBreaks (guardHashes atStart text) = guardHashes atStart (hardBreaks text) := by
  induction text using line_induction generalizing atStart with
  | last line h => rw [hardBreaks_line h, hardBreaks_line (newline_notMem_guardHashes h atStart)]
  | line line rest h ih =>
      have hnewline : ∀ start, guardHashes start ('\n' :: rest) = '\n' :: guardHashes true rest :=
        fun start => guardHashes_cons_of_ne (by decide) start rest
      have hbreak : ∀ start, guardHashes start [' ', ' ', '\n'] = [' ', ' ', '\n'] :=
        fun start => guardHashes_of_notMem (by decide) start
      have hstart : ∀ start, startsLineAfter start [' ', ' ', '\n'] = true := fun _ => rfl
      rw [guardHashes_append, hnewline, hardBreaks_line_append h,
        hardBreaks_line_append (newline_notMem_guardHashes h atStart), ih,
        dropTrailing_guardHashes (by decide), guardHashes_append, guardHashes_append, hbreak,
        startsLineAfter_append, hstart]

theorem run_eq_guardHashes (options : Options) (text : List Char) :
    run options text = guardHashes false (bareRun options text) := by
  simp only [run, bareRun, escape_eq_guardHashes]
  split <;> split <;> simp only [namedDashes_guardHashes, hardBreaks_guardHashes]

theorem head?_curlQuotes_eq_hash (text : List Char) :
    (curlQuotes text).head? = some '#' ↔ text.head? = some '#' := by
  cases text with
  | nil => rfl
  | cons c text =>
      have hcurl : curlQuote none c = '#' ↔ c = '#' := by
        simp only [curlQuote]
        repeat' split
        all_goals simp_all
      simpa [curlQuotes, curlQuotesAfter] using hcurl

theorem head?_escapeMarks_eq_hash (text : List Char) :
    (escapeMarks text).head? = some '#' ↔ text.head? = some '#' := by
  cases text with
  | nil => rfl
  | cons c text =>
      rw [escapeMarks]
      by_cases hc : c = '#'
      · subst hc
        rfl
      · split <;> simp [hc]

theorem head?_namedDashes_eq_hash (text : List Char) :
    (namedDashes text).head? = some '#' ↔ text.head? = some '#' := by
  simp only [namedDashes]
  rw [head?_replaceAll_eq_some_iff, head?_replaceAll_eq_some_iff, head?_replaceAll_eq_some_iff]
  all_goals decide

theorem head?_hardBreaks_eq_hash (text : List Char) :
    (hardBreaks text).head? = some '#' ↔ text.head? = some '#' := by
  induction text using line_induction with
  | last line h => rw [hardBreaks_line h]
  | line line rest h ih =>
      have hdrop : (dropTrailing isIndent line).head? = some '#' ↔ line.head? = some '#' :=
        head?_dropTrailing_eq_hash (by decide) line
      rw [hardBreaks_line_append h]
      have hmore : ∀ (before : List Char) {c : Char} (more : List Char), c ≠ '#' →
          ((before ++ c :: more).head? = some '#' ↔ before.head? = some '#') := by
        intro before c more hc
        cases before <;> simp [hc]
      rw [List.append_assoc, List.cons_append, hmore _ _ (by decide), hmore _ _ (by decide), hdrop]

theorem head?_bareRun_eq_hash (options : Options) (text : List Char) :
    (bareRun options text).head? = some '#' ↔ text.head? = some '#' := by
  simp only [bareRun]
  split <;> split <;> split <;>
    simp only [head?_hardBreaks_eq_hash, head?_namedDashes_eq_hash, head?_escapeMarks_eq_hash,
      head?_curlQuotes_eq_hash]

theorem withSpace_guardHashes {node : Node} {value : String} (h : node.kind = .plainText value)
    (text : List Char) :
    withSpace node (guardHashes false text) = guardHashes false (withSpace node text) := by
  cases text with
  | nil => rfl
  | cons c text =>
      have hcons : (guardHashes false (c :: text)).isEmpty = false := rfl
      have hspaces : ∀ count start, guardHashes start (List.replicate count ' ') =
          List.replicate count ' ' :=
        fun count start => guardHashes_of_notMem (by simp) start
      simp only [withSpace, h, Kind.isDocument, Kind.isBlock, hcons, List.isEmpty_cons,
        Bool.or_self, Bool.false_eq_true, if_false, guardHashes_append, hspaces]

/-- The markup of a plain text node and the space after it, with no hash sign escaped. -/
def bareMarkup (options : Options) (node : Node) : List Char :=
  withSpace node (bareRun options node.kind.ownText)

theorem head?_bareMarkup_eq_hash {node : Node} {value : String} (h : node.kind = .plainText value)
    (options : Options) :
    (bareMarkup options node).head? = some '#' ↔ node.kind.ownText.head? = some '#' := by
  have hrun := head?_bareRun_eq_hash options node.kind.ownText
  rw [bareMarkup, ← hrun]
  generalize bareRun options node.kind.ownText = text
  cases text with
  | nil => rfl
  | cons c text => simp [withSpace, h, Kind.isDocument, Kind.isBlock]

section Sequence

variable {render : Node → Rendering (List Char)} {text : Node → List Char} {nodes : List Node}

theorem renderAll_gives (h : ∀ node ∈ nodes, ∀ output, (render node).Gives output →
    output = text node) {output : List Char} (hgives : (renderAll render nodes).Gives output) :
    output = nodes.flatMap text := by
  obtain ⟨notes, final, hrun⟩ := hgives
  induction nodes generalizing notes final output with
  | nil => exact (Rendering.run_pure_eq_some hrun).1
  | cons node nodes ih =>
      obtain ⟨first, middle, hfirst, hmore⟩ := Rendering.run_bind_eq_some hrun
      obtain ⟨rest, last, hrest, hpure⟩ := Rendering.run_bind_eq_some hmore
      rw [(Rendering.run_pure_eq_some hpure).1, h node List.mem_cons_self first ⟨_, _, hfirst⟩,
        ih (fun node hn => h node (List.mem_cons_of_mem _ hn)) middle last hrest,
        List.flatMap_cons]

theorem renderAll_run (h : ∀ node ∈ nodes, ∀ notes,
    (render node).run notes = some (text node, notes)) (notes : Footnotes) :
    (renderAll render nodes).run notes = some (nodes.flatMap text, notes) := by
  induction nodes with
  | nil => rfl
  | cons node nodes ih =>
      have hrest := ih fun node hn => h node (List.mem_cons_of_mem _ hn)
      rw [renderAll, Rendering.run_bind, h node List.mem_cons_self notes]
      dsimp only [Option.bind_some]
      rw [Rendering.run_bind, hrest]
      rfl

end Sequence

section Child

variable {context : Context} {node : Node} {value : String} (h : node.kind = .plainText value)
include h

theorem withSpace_run (options : Options) :
    withSpace node (run options value.toList) = guardHashes false (bareMarkup options node) := by
  rw [run_eq_guardHashes, withSpace_guardHashes h, bareMarkup, h]
  rfl

theorem renderNode_plainText_gives {depth : Nat} {output : List Char}
    (hgives : (renderNode context depth node).Gives output) :
    output = guardHashes false (bareMarkup context.options node) := by
  obtain ⟨notes, later, hrun⟩ := hgives
  cases depth with
  | zero => cases hrun
  | succ depth =>
      rw [renderNode, renderWith_eq] at hrun
      obtain ⟨contents, middle, _, hformat⟩ := Rendering.run_bind_eq_some hrun
      simp only [format, h] at hformat
      exact (Rendering.run_pure_eq_some hformat).1.trans (withSpace_run h context.options)

theorem renderNode_plainText_run (hleaf : node.children = []) (depth : Nat) (notes : Footnotes) :
    (renderNode context (depth + 1) node).run notes =
      some (guardHashes false (bareMarkup context.options node), notes) := by
  rw [renderNode, renderWith_eq, contentsOf, hleaf, ← withSpace_run h]
  simp only [format, h]
  rfl

end Child

/-- The markup of a paragraph of plain text, without the space after it. -/
def plainParagraph (options : Options) : List Node → List Char
  | [] => []
  | first :: rest =>
    guardHashes true (bareMarkup options first) ++
      rest.flatMap fun node => guardHashes false (bareMarkup options node)

/-- A child after the first one starts a line of the paragraph, and does so with a hash sign. -/
def HasLooseHash (options : Options) (children : List Node) : Prop :=
  ∃ before child after, children = before ++ child :: after ∧ before ≠ [] ∧
    startsLineAfter true (before.flatMap (bareMarkup options)) = true ∧
    child.kind.ownText.head? = some '#'

section Paragraph

variable {options : Options} {children : List Node}
  (h : ∀ child ∈ children, ∃ value, child.kind = .plainText value)
include h

theorem paragraph_eq_plainParagraph :
    paragraph children
        (children.flatMap fun node => guardHashes false (bareMarkup options node)) =
      plainParagraph options children := by
  cases children with
  | nil => rfl
  | cons first rest =>
      obtain ⟨value, hvalue⟩ := h first List.mem_cons_self
      have hhead := head?_bareMarkup_eq_hash hvalue options
      have hown : first.kind.ownText = value.toList := by rw [hvalue]; rfl
      have hstarts : startsWithHash (first :: rest) = (value.toList.head? == some '#') := by
        simp only [startsWithHash, hvalue]
      rw [List.flatMap_cons, paragraph, plainParagraph, hstarts]
      rw [hown] at hhead
      by_cases hash : value.toList.head? = some '#'
      · obtain ⟨text, htext⟩ := List.head?_eq_some_iff.mp (hhead.mpr hash)
        rw [hash, htext]
        rfl
      · rw [guardHashes_of_head? (mt hhead.mp hash) true, beq_false_of_ne hash]
        rfl

omit h in
theorem hasLooseHash_cons (options : Options) (first : Node) (rest : List Node) :
    HasLooseHash options (first :: rest) ↔
      ∃ before child after, rest = before ++ child :: after ∧
        startsLineAfter (startsLineAfter true (bareMarkup options first))
          (before.flatMap (bareMarkup options)) = true ∧
        child.kind.ownText.head? = some '#' := by
  constructor
  · rintro ⟨before, child, after, heq, hne, hstart, hhead⟩
    obtain ⟨other, before, rfl⟩ := List.exists_cons_of_ne_nil hne
    cases heq
    rw [List.flatMap_cons, startsLineAfter_append] at hstart
    exact ⟨before, child, after, rfl, hstart, hhead⟩
  · rintro ⟨before, child, after, heq, hstart, hhead⟩
    refine ⟨first :: before, child, after, by rw [heq, List.cons_append],
      List.cons_ne_nil first before, ?_, hhead⟩
    rw [List.flatMap_cons, startsLineAfter_append]
    exact hstart

theorem hasHashLine_plainParagraph :
    hasHashLine true (plainParagraph options children) = true ↔
      HasLooseHash options children := by
  cases children with
  | nil => simp [plainParagraph, hasHashLine, HasLooseHash]
  | cons first rest =>
      rw [plainParagraph, hasHashLine_append, hasHashLine_guardHashes, Bool.not_true,
        Bool.and_false, Bool.false_and, Bool.false_or, startsLineAfter_guardHashes,
        hasHashLine_flatMap_guardHashes, hasLooseHash_cons]
      refine exists_congr fun before => exists_congr fun child => exists_congr fun after => ?_
      refine and_congr_right fun heq => and_congr_right fun _ => ?_
      obtain ⟨value, hvalue⟩ := h child (by simp [heq])
      exact head?_bareMarkup_eq_hash hvalue options

theorem plainParagraph_eq_guardHashes_iff :
    plainParagraph options children =
        guardHashes true (children.flatMap (bareMarkup options)) ↔
      ¬HasLooseHash options children := by
  rw [← hasHashLine_plainParagraph h, Bool.not_eq_true]
  cases children with
  | nil => simp [plainParagraph, hasHashLine, guardHashes]
  | cons first rest =>
      rw [plainParagraph, List.flatMap_cons, guardHashes_append, List.append_cancel_left_eq,
        flatMap_guardHashes_eq_iff, hasHashLine_append, hasHashLine_guardHashes,
        startsLineAfter_guardHashes]
      simp

end Paragraph

theorem hasHashLine_dropLineEnds (atStart : Bool) (text : List Char) :
    hasHashLine atStart (dropLineEnds text) = hasHashLine atStart text := by
  induction text generalizing atStart with
  | nil => rfl
  | cons c text ih =>
      rw [dropLineEnds]
      split
      · next h =>
          have hplain : '#' ∉ c :: text := by
            intro hmem
            simp only [Bool.and_eq_true, beq_iff_eq, List.all_eq_true] at h
            obtain heq | htext := List.mem_cons.mp hmem
            · cases heq.trans h.1
            · cases h.2 '#' htext
          rw [hasHashLine_of_notMem hplain]
          rfl
      · rw [hasHashLine, hasHashLine, ih]

theorem hasHashLine_withSpace {node : Node} (h : node.kind = .paragraph) (text : List Char) :
    hasHashLine true (withSpace node text) = hasHashLine true text := by
  have hnewlines : ∀ count start, hasHashLine start (List.replicate count '\n') = false :=
    fun count start => hasHashLine_of_notMem (by simp) start
  simp only [withSpace, h, Kind.isDocument, Kind.isBlock, Bool.or_false]
  split
  · rfl
  · rw [if_pos trivial, endLine, hasHashLine_append, hasHashLine_append, hnewlines,
      hasHashLine_dropLineEnds]
    simp [hasHashLine]

section Whole

variable {context : Context} {node : Node} (hnode : node.kind = .paragraph)
  (hchildren : ∀ child ∈ node.children, ∃ value, child.kind = .plainText value)
include hnode hchildren

theorem renderNode_paragraph_gives {depth : Nat} {output : List Char}
    (hgives : (renderNode context depth node).Gives output) :
    output = withSpace node (plainParagraph context.options node.children) := by
  obtain ⟨notes, later, hrun⟩ := hgives
  cases depth with
  | zero => cases hrun
  | succ depth =>
      rw [renderNode, renderWith_eq, contentsOf, hnode] at hrun
      obtain ⟨contents, middle, hcontents, hformat⟩ := Rendering.run_bind_eq_some hrun
      simp only [format, hnode] at hformat
      rw [(Rendering.run_pure_eq_some hformat).1, renderAll_gives _ ⟨notes, middle, hcontents⟩,
        paragraph_eq_plainParagraph hchildren]
      intro child hchild text htext
      obtain ⟨value, hvalue⟩ := hchildren child hchild
      exact renderNode_plainText_gives hvalue htext

/-- One level of depth lasts for the paragraph and one for its children. -/
theorem renderNode_paragraph_run (hleaf : ∀ child ∈ node.children, child.children = [])
    {depth : Nat} (hdepth : node.children.length < depth) (notes : Footnotes) :
    (renderNode context depth node).run notes =
      some (withSpace node (plainParagraph context.options node.children), notes) := by
  obtain ⟨below, rfl⟩ := Nat.exists_eq_succ_of_ne_zero (Nat.ne_zero_of_lt hdepth)
  have hcontents : ∀ child ∈ node.children, ∀ notes, (renderNode context below child).run notes =
      some (guardHashes false (bareMarkup context.options child), notes) := by
    intro child hchild notes
    have hpos : 0 < node.children.length := List.length_pos_of_mem hchild
    obtain ⟨value, hvalue⟩ := hchildren child hchild
    obtain ⟨least, rfl⟩ := Nat.exists_eq_succ_of_ne_zero (show below ≠ 0 by omega)
    exact renderNode_plainText_run hvalue (hleaf child hchild) least notes
  rw [renderNode, renderWith_eq, contentsOf, hnode, Rendering.run_bind]
  simp only [descends, if_true, renderAll_run hcontents, Option.bind_some, format, hnode]
  rw [← paragraph_eq_plainParagraph hchildren]
  rfl

end Whole

/-- The hash signs that come first on a line of a paragraph of plain text are escaped, each by one
backslash, exactly when no later child brings one of them. -/
theorem paragraph_hashLines (context : Context) (node : Node) (hnode : node.kind = .paragraph)
    (hchildren : ∀ child ∈ node.children, ∃ value, child.kind = .plainText value) :
    (∀ depth output, (renderNode context depth node).Gives output →
        output = withSpace node (plainParagraph context.options node.children)) ∧
      ((∀ child ∈ node.children, child.children = []) →
        ∀ depth notes, node.children.length < depth →
          (renderNode context depth node).run notes =
            some (withSpace node (plainParagraph context.options node.children), notes)) ∧
      (plainParagraph context.options node.children =
          guardHashes true (node.children.flatMap (bareMarkup context.options)) ↔
        ¬HasLooseHash context.options node.children) ∧
      ((∃ line ∈ lines (withSpace node (plainParagraph context.options node.children)),
          line.head? = some '#') ↔
        HasLooseHash context.options node.children) := by
  refine ⟨fun depth output => renderNode_paragraph_gives hnode hchildren,
    fun hleaf depth notes hdepth => renderNode_paragraph_run hnode hchildren hleaf hdepth notes,
    plainParagraph_eq_guardHashes_iff hchildren, ?_⟩
  rw [← hasHashLine_iff_exists_line, hasHashLine_withSpace hnode,
    hasHashLine_plainParagraph hchildren]

/-- The second run does not know that it starts a line, nor does the paragraph look at it. -/
theorem paragraph_hashLines_secondRun :
    let node := Node.paragraph [Node.ofValue "a\n", Node.ofValue "#b"]
    let context := Context.ofTree node.prepare {} []
    node.kind = .paragraph ∧ (∀ child ∈ node.children, ∃ value, child.kind = .plainText value) ∧
      (renderNode context 3 node).run {} = some ("a\n#b\n".toList, {}) ∧
      HasLooseHash {} node.children ∧
      plainParagraph {} node.children ≠
        guardHashes true (node.children.flatMap (bareMarkup {})) ∧
      ∃ line ∈ lines "a\n#b\n".toList, line.head? = some '#' := by
  intro node context
  have hmem : ∀ child ∈ node.children, child = Node.ofValue "a\n" ∨ child = Node.ofValue "#b" := by
    intro child hchild
    simpa only [node, Node.paragraph, Node.ofKind, List.mem_cons, List.not_mem_nil, or_false]
      using hchild
  have hchildren : ∀ child ∈ node.children, ∃ value, child.kind = .plainText value := by
    intro child hchild
    obtain rfl | rfl := hmem child hchild
    · exact ⟨_, rfl⟩
    · exact ⟨_, rfl⟩
  have hleaf : ∀ child ∈ node.children, child.children = [] := by
    intro child hchild
    obtain rfl | rfl := hmem child hchild
    · rfl
    · rfl
  obtain ⟨_, hrun, hguarded, hline⟩ := paragraph_hashLines context node rfl hchildren
  have hloose : HasLooseHash {} node.children :=
    ⟨[Node.ofValue "a\n"], Node.ofValue "#b", [], rfl, List.cons_ne_nil _ _, by decide, by decide⟩
  have houtput := hrun hleaf 3 {} (by decide)
  have htext : withSpace node (plainParagraph context.options node.children) =
      "a\n#b\n".toList := by decide
  rw [htext] at houtput hline
  exact ⟨rfl, hchildren, houtput, hloose, fun h => hguarded.mp h hloose, hline.mpr hloose⟩

end OutlineWiki.Markup
