import OutlineWiki.Proofs.Rendering.Brackets

/-!
Links whose description mentions the label of a line.

The description of a link is searched for the label after it has become markup. So the mention
is only found, and the number or label of the line only put in its place, if the label is not
changed on the way.
-/

namespace OutlineWiki

open Markup Text
open Survey (bracketed)

/-- The link leads to labelled lines, and its description is one text that mentions the label
between brackets and leaves percent signs out, which templates take for their own. -/
structure Node.Mentions (path description : String) (link text : Node) : Prop where
  leads : link.kind = .link .coderef path
  owns : link.children = [text]
  isText : text.kind = .plainText description
  mention : bracketed path.toList <:+: description.toList
  plain : '%' ∉ description.toList

/-- The description of a link that is the given text. -/
def Node.shownDescription (options : Options) (text : Node) : List Char :=
  trim (withSpace text (run options text.kind.ownText))

/-- The link is shown as the given text with a value in the place of the label between brackets.
Nothing else is rendered than what the text owns, of which nothing is shown. -/
def Context.ShowsMention (context : Context) (label value : List Char) (link text : Node) : Prop :=
  ∃ before after,
    FirstAt (bracketed label) before after (text.shownDescription context.options) ∧
      ∀ depth, renderNode context (depth + 2) link = do
        let _ ← renderAll (renderNode context depth) text.children
        return withSpace link (before ++ value ++ after)

theorem infix_of_infix_trim {part text : List Char} (h : part <:+: trim text) :
    part <:+: text := by
  obtain ⟨run, hrun, _⟩ := exists_trailing isBlank (text.dropWhile isBlank)
  have htrim : trim text <:+: text.dropWhile isBlank := ⟨[], run, hrun.symm⟩
  exact h.trans (htrim.trans (List.dropWhile_suffix isBlank).isInfix)

section

variable {context : Context} {path description : String} {link text : Node} {value : List Char}

/-- A link with one text for its description renders what the text owns, and shows the link. -/
theorem renderNode_codeLink (h : Node.Mentions path description link text) (depth : Nat) :
    renderNode context (depth + 2) link = do
      let _ ← renderAll (renderNode context depth) text.children
      return withSpace link (codeReference context path.toList
        (if (text.shownDescription context.options).isEmpty then none
          else some (text.shownDescription context.options))) := by
  have htext : renderNode context (depth + 1) text = do
      let _ ← renderAll (renderNode context depth) text.children
      return withSpace text (run context.options text.kind.ownText) := by
    simp [renderNode, renderWith, h.isText, descends, format, Kind.ownText]
  rw [renderNode, renderWith, h.leads, h.owns]
  simp [descends, renderAll, htext, format, h.leads, Markup.link, Node.shownDescription]

theorem shownDescription_ofValue (options : Options) (value : String) :
    (Node.ofValue value).shownDescription options = trim (run options value.toList) := by
  have hspace : ∀ markup, withSpace (Node.ofValue value) markup = markup := fun markup => by
    simp [withSpace, Node.ofValue, Kind.isDocument, Kind.isBlock]
  rw [Node.shownDescription, hspace]
  rfl

theorem mem_shownDescription (h : text.kind = .plainText description) {options : Options}
    {c : Char} (hc : c ∈ text.shownDescription options) :
    c ∈ run options description.toList ∨ c = ' ' := by
  have hmem : c ∈ withSpace text (run options text.kind.ownText) :=
    (infix_of_infix_trim List.infix_rfl).subset hc
  rw [withSpace, h] at hmem
  split at hmem
  · exact .inl hmem
  · obtain hrun | hspace := List.mem_append.mp hmem
    · exact .inl hrun
    · exact .inr (List.eq_of_mem_replicate hspace)

theorem percent_notMem_shownDescription (h : Node.Mentions path description link text)
    (options : Options) : '%' ∉ text.shownDescription options := by
  intro hmem
  obtain hrun | hspace := mem_shownDescription h.isText hmem
  · exact h.plain ((mem_iff_of_filter_eq (filter_run options _) (by decide)).mp hrun)
  · cases hspace

theorem isLiteral_of_notMem {text : List Char} (h : '%' ∉ text) : IsLiteral text :=
  fun _ _ hin => h (hin.subset List.mem_cons_self)

theorem isMark_bracketed {label : List Char} (h : CodeLabel.isLabel label = true) :
    IsMark (bracketed label) := by
  refine ⟨List.cons_ne_nil _ _, fun c hc => ?_⟩
  rw [bracketed, List.cons_append, List.mem_cons, List.mem_append, List.mem_singleton] at hc
  obtain rfl | hlabel | rfl := hc
  · decide
  · exact CodeLabel.solid_of_isLabel h c hlabel
  · decide

/-- Without percent signs, a description around a mention is kept by the template it makes. -/
theorem codeReference_of_firstAt {label before after description : List Char}
    (hanswer : context.host.codeReference label (some description) =
      some (Survey.codeTemplate label (some description), value))
    (hfirst : FirstAt (bracketed label) before after description) (hvalue : value ≠ [])
    (hpercent : '%' ∉ description) :
    codeReference context label (some description) = before ++ value ++ after := by
  rw [hfirst.parts, List.mem_append, List.mem_append, not_or, not_or] at hpercent
  obtain ⟨⟨hbefore, _⟩, hafter⟩ := hpercent
  rw [codeReference, hanswer, Survey.codeTemplate_bracketed hfirst]
  exact (fill_placeholder_eq_iff hvalue).mpr ⟨isLiteral_of_notMem hbefore,
    isLiteral_of_notMem hafter, fun hlast => absurd (List.mem_of_getLast? hlast) hbefore⟩

/-- A mention of a label that is shown as it is gives way to the value for the label. -/
theorem showsMention (hlabel : CodeLabel.isLabel path.toList = true)
    (hplain : ShowsAsIs context.options path.toList) (hvalue : value ≠ [])
    (hanswer : ∀ description, context.host.codeReference path.toList description =
      some (Survey.codeTemplate path.toList description, value))
    (h : Node.Mentions path description link text) :
    context.ShowsMention path.toList value link text := by
  have hmark := isMark_bracketed hlabel
  have hrun : bracketed path.toList <:+: run context.options text.kind.ownText := by
    rw [h.isText]
    exact hplain.infix_run hmark h.mention
  have hin : bracketed path.toList <:+: text.shownDescription context.options :=
    hmark.infix_trim (infix_withSpace hmark text hrun)
  have hshown : (text.shownDescription context.options).isEmpty = false := by
    refine Bool.eq_false_iff.mpr fun hempty => hmark.ne_nil ?_
    rwa [List.isEmpty_iff.mp hempty, List.infix_nil] at hin
  obtain ⟨before, after, hfirst⟩ := exists_firstAt hin
  refine ⟨before, after, hfirst, fun depth => ?_⟩
  rw [renderNode_codeLink h, hshown, if_neg Bool.false_ne_true,
    codeReference_of_firstAt (hanswer _) hfirst hvalue
      (percent_notMem_shownDescription h context.options)]

/-- A label whose mentions all give way to a value is shown as it is. -/
theorem showsAsIs_of_showsMention (hlabel : CodeLabel.isLabel path.toList = true)
    (hpercent : '%' ∉ path.toList)
    (hall : ∀ description link text, Node.Mentions path description link text →
      context.ShowsMention path.toList value link text) :
    ShowsAsIs context.options path.toList := by
  -- The shortest description is the mention itself.
  have hmention : (String.ofList (bracketed path.toList)).toList = bracketed path.toList :=
    String.toList_ofList
  have hmentions : Node.Mentions path (String.ofList (bracketed path.toList))
      (Node.link .coderef path (some (String.ofList (bracketed path.toList))))
      (Node.ofValue (String.ofList (bracketed path.toList))) := by
    refine ⟨rfl, rfl, rfl, by rw [hmention], ?_⟩
    rw [hmention]
    simpa [bracketed] using hpercent
  obtain ⟨before, after, hfirst, _⟩ := hall _ _ _ hmentions
  rw [shownDescription_ofValue, hmention] at hfirst
  have hin : bracketed path.toList <:+: run context.options (bracketed path.toList) :=
    infix_of_infix_trim ⟨before, after, hfirst.parts.symm⟩
  have hn : '\n' ∉ path.toList := fun hmem =>
    absurd (CodeLabel.solid_of_isLabel hlabel '\n' hmem) (by decide)
  exact (infix_run_bracketed_iff hn).mp hin

end

/-- A link to a labelled line shows the number of the line, if it counts, or the label. The
mention of the label in the description gives way to it, whatever else the description holds,
exactly when making markup does not change the label. -/
theorem Survey.codeLink_mentions {root : Node} {path : String} (options : Options)
    (externalIds : List (String × String))
    (h : ∃ node ∈ root.prepare.walk, ∃ line ∈ node.labelledLines, line.label = path.toList) :
    let survey := Survey.ofTree root.prepare options externalIds
    let context := Context.ofTree root.prepare options externalIds
    ∃ line ∈ survey.labelledLines, line.label = path.toList ∧
      survey.host.codeReference path.toList none = some ("%s".toList, line.reference) ∧
      ('%' ∉ path.toList →
        ((∀ description link text, Node.Mentions path description link text →
            context.ShowsMention path.toList line.reference link text) ↔
          ShowsAsIs options path.toList)) := by
  intro survey context
  obtain ⟨line, hline, hlabelled, hvalue, hanswer⟩ :=
    Survey.exists_labelledLine options externalIds h
  obtain ⟨node, _, hnode⟩ := h
  have hlabel := Survey.isLabel_of_labelledLine hnode
  refine ⟨line, hline, hlabelled, hanswer none, fun hpercent => ⟨fun hall => ?_, ?_⟩⟩
  · exact showsAsIs_of_showsMention hlabel hpercent hall
  · exact fun hplain description link text hmentions =>
      showsMention hlabel hplain hvalue hanswer hmentions

section

open Node (document paragraph ofKind)

/-- A block that counts its lines and labels the second one with an underscore. -/
def Node.countedBlock : Node :=
  ofKind (.sourceBlock none "setup();\nrun(); (ref:my_run)\n" true) []

theorem codeLink_mentions_underscore :
    let root := document [Node.countedBlock]
    let context := Context.ofTree root.prepare {} []
    let label := "my_run".toList
    (∃ node ∈ root.prepare.walk, ∃ line ∈ node.labelledLines, line.label = label) ∧
      ∃ line ∈ (Survey.ofTree root.prepare {} []).labelledLines, line.label = label ∧
        context.host.codeReference label none = some ("%s".toList, line.reference) ∧
        ∃ description link text, Node.Mentions "my_run" description link text ∧
          ¬ context.ShowsMention label line.reference link text := by
  intro root context label
  have hlabel : ∃ node ∈ root.prepare.walk, ∃ line ∈ node.labelledLines, line.label = label := by
    decide +kernel
  obtain ⟨line, hline, hlabelled, hanswer, hiff⟩ := Survey.codeLink_mentions {} [] hlabel
  have hchanged : ¬ ShowsAsIs {} label := fun h => h.marks '_' (by decide) (by decide)
  have hmissed := mt (hiff (by decide)).mp hchanged
  push Not at hmissed
  exact ⟨hlabel, line, hline, hlabelled, hanswer, hmissed⟩

-- The underscore is escaped before the label is searched for, and the number is not shown.
example :
    let link := Node.link .coderef "my_run" (some "line (my_run)")
    (document [Node.countedBlock, paragraph [link]]).bodyMarkup? {} =
      some "    setup();\n    run();\n\nline (my\\_run)\n\n".toList := by
  decide +kernel

end

end OutlineWiki
