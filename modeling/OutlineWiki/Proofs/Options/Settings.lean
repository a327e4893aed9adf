import OutlineWiki.Export
import OutlineWiki.Outline.Build
import OutlineWiki.Proofs.Options.ReadBack
import OutlineWiki.Proofs.Rendering.RunningText

/-!
Options that are set one by one, and the same options read from an object.

Either way the option gets the value that is given, with one exception. Setting the output extension
drops the dots that it starts with, and reading it keeps them. So the two ways agree on all options,
and on the markup of all trees, unless the output extension starts with a dot. Then a link to another
outline gets more than one dot before the extension that was read.
-/

namespace OutlineWiki

/-- A value for one of the options that can be set one by one. -/
inductive Setting where
  | todoKeywords (enabled : Bool)
  | tags (enabled : Bool)
  | priority (enabled : Bool)
  | smartQuotes (enabled : Bool)
  | specialStrings (enabled : Bool)
  | preserveBreaks (enabled : Bool)
  | headlineStyle (style : HeadlineStyle)
  | tableClass (name : Option String)
  | footnoteFormat (format : String)
  | footnoteSeparator (separator : String)
  | footnotesSection (template : String)
  | outputExtension (extension : String)
  | language (name : String)
  | wording (key value : String)

namespace Setting

/-- The key and the value that are written for a setting. -/
def entry : Setting → String × Json
  | todoKeywords enabled => ("with-todo-keywords", .bool enabled)
  | tags enabled => ("with-tags", .bool enabled)
  | priority enabled => ("with-priority", .bool enabled)
  | smartQuotes enabled => ("with-smart-quotes", .bool enabled)
  | specialStrings enabled => ("with-special-strings", .bool enabled)
  | preserveBreaks enabled => ("preserve-breaks", .bool enabled)
  | headlineStyle style => ("headline-style", .string style.name)
  | tableClass name => ("default-table-class", name.elim .null .string)
  | footnoteFormat format => ("footnote-reference-format", .string format)
  | footnoteSeparator separator => ("footnote-separator", .string separator)
  | footnotesSection template => ("footnotes-section-template", .string template)
  | outputExtension extension => ("output-extension", .string extension)
  | language name => ("language", .string name)
  | wording key value => ("translations", .object [(key, .string value)])

/-- The object with the one entry. -/
def object (setting : Setting) : Json :=
  .object [setting.entry]

/-- Changes the option in given options. -/
def set : Setting → Options → Options
  | todoKeywords enabled, options => options.setTodoKeywords enabled
  | tags enabled, options => options.setTags enabled
  | priority enabled, options => options.setPriority enabled
  | smartQuotes enabled, options => options.setSmartQuotes enabled
  | specialStrings enabled, options => options.setSpecialStrings enabled
  | preserveBreaks enabled, options => options.setPreserveBreaks enabled
  | headlineStyle style, options => options.setHeadlineStyle style
  | tableClass name, options => options.setTableClass name
  | footnoteFormat format, options => options.setFootnoteFormat format options.footnoteSeparator
  | footnoteSeparator separator, options =>
    options.setFootnoteFormat options.footnoteReferenceFormat separator
  | footnotesSection template, options => options.setFootnotesSection template
  | outputExtension extension, options => options.setOutputExtension extension
  | language name, options => options.setLanguage name
  | wording key value, options => options.setWording key value

/-- The defaults with the very value in the place of the one option. -/
def kept : Setting → Options
  | todoKeywords enabled => { withTodoKeywords := enabled }
  | tags enabled => { withTags := enabled }
  | priority enabled => { withPriority := enabled }
  | smartQuotes enabled => { withSmartQuotes := enabled }
  | specialStrings enabled => { withSpecialStrings := enabled }
  | preserveBreaks enabled => { preserveBreaks := enabled }
  | headlineStyle style => { headlineStyle := style }
  | tableClass name => { defaultTableClass := name }
  | footnoteFormat format => { footnoteReferenceFormat := format }
  | footnoteSeparator separator => { footnoteSeparator := separator }
  | footnotesSection template => { footnotesSectionTemplate := template }
  | outputExtension extension => { outputExtension := extension }
  | language name => { language := name }
  | wording key value => { wordings := [(key, value)] }

/-- The setting is for an output extension that starts with a dot. -/
def IsDotted (setting : Setting) : Prop :=
  ∃ extension, setting = outputExtension extension ∧ extension.toList.head? = some '.'

example : (outputExtension ".wiki").IsDotted :=
  ⟨_, rfl, by decide⟩

variable (setting : Setting)

theorem nodup_wordings_kept : (setting.kept.wordings.map Prod.fst).Nodup := by
  cases setting <;> simp [kept]

theorem filter_written_kept :
    (setting.kept.written.filter fun entry => entry.1 ∈ [setting.entry.1]) = [setting.entry] := by
  cases setting <;> rfl

theorem restrict_kept : setting.kept.restrict [setting.entry.1] = setting.kept := by
  cases setting <;> rfl

theorem read_scan_object : Options.read setting.object.scan = .ok setting.kept := by
  have hholds := holds_present
    (Options.nodup_chosenFields setting.kept [setting.entry.1])
  rw [Options.present_chosenFields, filter_written_kept] at hholds
  have hread := Options.read_of_holds rfl setting.nodup_wordings_kept hholds ?formed
  case formed =>
    intro entry hentry
    rw [Json.entryScans_eq_map, List.map_singleton, List.mem_singleton] at hentry
    subst hentry
    obtain ⟨source, _, hscan⟩ := setting.entry.2.exists_source
    exact hscan ▸ source.isFormed_scan
  rw [restrict_kept] at hread
  exact hread

theorem not_isDotted (h : ∀ extension, setting ≠ outputExtension extension) :
    ¬ setting.IsDotted :=
  fun ⟨extension, heq, _⟩ => h extension heq

theorem isDotted_outputExtension_iff {extension : String} :
    (outputExtension extension).IsDotted ↔ extension.toList.head? = some '.' := by
  constructor
  · rintro ⟨_, heq, hhead⟩
    cases heq
    exact hhead
  · exact fun hhead => ⟨extension, rfl, hhead⟩

theorem isDotted_iff : setting.IsDotted ↔ setting.kept.outputExtension.toList.head? = some '.' := by
  cases setting with
  | outputExtension extension => exact isDotted_outputExtension_iff
  | _ =>
      have hwiki : "wiki".toList.head? ≠ some '.' := by decide
      exact iff_of_false (not_isDotted _ (by simp)) hwiki

theorem head?_outputExtension_set :
    (setting.set {}).outputExtension.toList.head? ≠ some '.' := by
  cases setting with
  | outputExtension extension =>
      intro hhead
      have hfirst := List.head?_dropWhile_not (· == '.') extension.toList
      simp_all [set, Options.setOutputExtension]
  | _ => exact show "wiki".toList.head? ≠ some '.' by decide

theorem kept_eq_set (h : ¬ setting.IsDotted) : setting.kept = setting.set {} := by
  cases setting with
  | outputExtension extension =>
      rw [isDotted_outputExtension_iff] at h
      have hdrop : extension.toList.dropWhile (· == '.') = extension.toList := by
        rw [List.dropWhile_eq_self_iff]
        intro hlength hfirst
        refine h ?_
        rw [List.head?_eq_getElem?, List.getElem?_eq_getElem hlength, ← beq_iff_eq.mp hfirst]
      rw [kept, set, Options.setOutputExtension, hdrop, String.ofList_toList]
  | _ => rfl

end Setting

section Linked

open Markup Text

/-- A tree that refers to no footnote is exported as its body alone. -/
theorem wikiMarkup?_of_render {root : Node} {options : Options} {body : List Char}
    (h : ((Context.ofTree root.prepare options []).render root.prepare).run {} =
      some (body, {})) : root.wikiMarkup? options = some body := by
  have hnotes : ((Context.ofTree root.prepare options []).withFootnotes body).run {} =
      some (body, {}) := rfl
  have hdocument : ((Context.ofTree root.prepare options []).renderDocument root.prepare).run {} =
      some (body, {}) := by
    rw [Context.renderDocument, Rendering.run_bind, h, Option.bind_some, Rendering.run_bind,
      hnotes]
    rfl
  exact congrArg (Option.map Prod.fst) hdocument

/-- An outline with a link to another outline. -/
def Node.linked : Node :=
  .document [.paragraph [.link .file "a.org" (some "x")]]

/-- What the link in the outline is shown as. -/
def shownLink (extension : List Char) : List Char :=
  '[' :: ("a.".toList ++ extension) ++ [' '] ++ "x".toList ++ [']']

theorem shownLink_ne_nil (extension : List Char) : shownLink extension ≠ [] :=
  List.cons_ne_nil _ _

theorem shownLink_inj {extension other : List Char} (h : shownLink extension = shownLink other) :
    extension = other := by
  simpa [shownLink] using h

variable {context : Context} {extension : String}
  (hcontext : context.options.outputExtension = extension)

include hcontext in
/-- The one link is shown with its description and the output extension. -/
theorem renderNode_linked_run {link text : Node} (hlink : link.kind = .link .file "a.org")
    (hspace : link.postBlank = none) (hchildren : link.children = [text]) {depth : Nat}
    (htext : ∀ notes, (renderNode context depth text).run notes = some ("x".toList, notes))
    (notes : Footnotes) :
    (renderNode context (depth + 1) link).run notes =
      some (shownLink extension.toList, notes) := by
  have hformat : format context (renderNode context depth) link
      (link.children.flatMap fun _ => "x".toList) = pure (shownLink extension.toList) := by
    have hshown : ShowsSomething "x".toList := ⟨'x', by decide, rfl⟩
    have htarget : externalTarget context.options .file "a.org".toList =
        "a.".toList ++ extension.toList := by
      rw [← hcontext]
      rfl
    rw [hchildren]
    simp only [format, hlink]
    change Markup.link context (renderNode context depth) link .file "a.org" "x".toList = _
    rw [link_described (.inr rfl) hshown, htarget, shownLink]
    rfl
  have hmarkup : withSpace link (shownLink extension.toList) = shownLink extension.toList := by
    rw [withSpace_of_inline (by rw [hlink]; rfl) (shownLink_ne_nil _), hspace]
    exact List.append_nil _
  rw [← hmarkup]
  exact renderNode_run_of_format (by rw [hlink]; rfl)
    (hchildren ▸ List.forall_mem_singleton.mpr htext) hformat notes

omit hcontext in
theorem withSpace_shownLink {paragraph : Node} (hkind : paragraph.kind = .paragraph)
    (hspace : paragraph.postBlank = some 1) (extension : List Char) :
    withSpace paragraph (shownLink extension) = shownLink extension ++ ['\n', '\n'] := by
  have hends : EndsShown (shownLink extension) := ⟨_, ']', rfl, rfl⟩
  rw [withSpace_of_isBlock (by rw [hkind]; rfl) (by rw [hkind]; rfl) (shownLink_ne_nil _), endLine,
    dropLineEnds_of_endsShown hends, hspace, List.append_assoc]
  rfl

omit hcontext in
theorem wikiMarkup?_linked (extension : String) :
    Node.linked.wikiMarkup? { outputExtension := extension } =
      some (shownLink extension.toList ++ ['\n', '\n']) := by
  let context := Context.ofTree Node.linked.prepare { outputExtension := extension } []
  let link : Node :=
    { kind := .link .file "a.org", children := [{ Node.ofValue "x" with id := 3 }], id := 2 }
  let paragraph : Node :=
    { kind := .paragraph, children := [link], postBlank := some 1, id := 1 }
  let root : Node := { kind := .document, children := [paragraph] }
  have hlink : ∀ child ∈ paragraph.children, ∀ notes, (renderNode context 2 child).run notes =
      some (shownLink extension.toList, notes) :=
    List.forall_mem_singleton.mpr (renderNode_linked_run rfl rfl rfl rfl fun _ => rfl)
  have hparagraph : ∀ child ∈ root.children, ∀ notes, (renderNode context 3 child).run notes =
      some (shownLink extension.toList ++ ['\n', '\n'], notes) := by
    refine List.forall_mem_singleton.mpr fun notes => ?_
    have hformat : format context (renderNode context 2) paragraph
        (shownLink extension.toList ++ []) = pure (shownLink extension.toList) := by
      rw [List.append_nil]
      rfl
    rw [← withSpace_shownLink (show paragraph.kind = .paragraph from rfl) rfl]
    exact renderNode_run_of_format rfl hlink hformat notes
  have hformat : format context (renderNode context 3) root
      (shownLink extension.toList ++ ['\n', '\n'] ++ []) =
        pure (shownLink extension.toList ++ ['\n', '\n']) := by
    rw [List.append_nil]
    rfl
  have hbody : (renderNode context 4 root).run {} =
      some (shownLink extension.toList ++ ['\n', '\n'], {}) :=
    renderNode_run_of_format rfl hparagraph hformat {}
  exact wikiMarkup?_of_render hbody

end Linked

namespace Path

open Text

/-- The path goes on after a stem with one dot, and not with a second one. -/
def HasOneDot (stem path : List Char) : Prop :=
  ∃ extension, path = stem ++ '.' :: extension ∧ extension.head? ≠ some '.'

theorem replaceExtension_append {suffix : List Char}
    (h : sameLatin suffix ".org".toList = true) (stem extension : List Char) :
    replaceExtension (stem ++ suffix) extension = stem ++ '.' :: extension := by
  have hlength : suffix.length = 4 := by
    have hlower := congrArg List.length (beq_iff_eq.mp h)
    simpa [lowerLatin] using hlower
  have hcut : (stem ++ suffix).length - 4 = stem.length := by
    rw [List.length_append, hlength, Nat.add_sub_cancel]
  rw [replaceExtension, hcut, List.take_left, List.drop_left]
  exact if_pos h

theorem hasOneDot_replaceExtension_iff {suffix : List Char}
    (h : sameLatin suffix ".org".toList = true) (stem extension : List Char) :
    HasOneDot stem (replaceExtension (stem ++ suffix) extension) ↔
      extension.head? ≠ some '.' := by
  rw [replaceExtension_append h]
  constructor
  · rintro ⟨other, heq, hhead⟩
    rwa [(List.cons.inj (List.append_cancel_left heq)).2]
  · exact fun hhead => ⟨extension, rfl, hhead⟩

end Path

namespace Setting

/-- How a setting that is read compares with the same setting made on the defaults. -/
structure IsReadAsSet (setting : Setting) : Prop where
  /-- The object is read alike in every spelling. -/
  spelled (source : Source) (h : source.scan = setting.object.scan) :
    Options.ofText source.text = .ok setting.kept
  read : Options.ofText setting.object.text = .ok setting.kept
  options : Options.ofText setting.object.text = .ok (setting.set {}) ↔ ¬ setting.IsDotted
  /-- All trees have the same markup either way. -/
  markup : (∀ root : Node, root.wikiMarkup? setting.kept = root.wikiMarkup? (setting.set {})) ↔
    ¬ setting.IsDotted
  /-- A link to another outline gets one dot when the option was set. -/
  setDot (stem suffix : List Char) (h : Text.sameLatin suffix ".org".toList = true) :
    Path.HasOneDot stem
      (Path.replaceExtension (stem ++ suffix) (setting.set {}).outputExtension.toList)
  readDot (stem suffix : List Char) (h : Text.sameLatin suffix ".org".toList = true) :
    Path.HasOneDot stem
        (Path.replaceExtension (stem ++ suffix) setting.kept.outputExtension.toList) ↔
      ¬ setting.IsDotted

/-- The link in an outline shows a dot that was read. -/
theorem wikiMarkup?_linked_ne {setting : Setting} (h : setting.IsDotted) :
    Node.linked.wikiMarkup? setting.kept ≠ Node.linked.wikiMarkup? (setting.set {}) := by
  obtain ⟨extension, rfl, hhead⟩ := h
  have hset := head?_outputExtension_set (outputExtension extension)
  change Node.linked.wikiMarkup? { outputExtension := extension } ≠ Node.linked.wikiMarkup?
    { outputExtension := ((outputExtension extension).set {}).outputExtension }
  rw [wikiMarkup?_linked, wikiMarkup?_linked]
  intro heq
  have hextension := shownLink_inj (List.append_cancel_right (Option.some.inj heq))
  exact hset (hextension ▸ hhead)

/-- Reading an object with one option gives what setting the option does, and the same markup for
every tree, unless the option is an output extension that starts with a dot. The dot is dropped when
the option is set, and kept when it is read. -/
theorem isReadAsSet (setting : Setting) : setting.IsReadAsSet := by
  have hread : Options.ofText setting.object.text = .ok setting.kept :=
    Options.ofText_eq_of_scan (Json.ofText_text _) setting.read_scan_object
  constructor
  case spelled =>
    intro source h
    have hscan := setting.read_scan_object
    rw [← h] at hscan
    exact Options.ofText_eq_of_scan (Source.ofText_text _) hscan
  case read => exact hread
  case options =>
    rw [hread, Except.ok.injEq]
    refine ⟨fun heq hdotted => wikiMarkup?_linked_ne hdotted (by rw [heq]), setting.kept_eq_set⟩
  case markup =>
    constructor
    · exact fun h hdotted => wikiMarkup?_linked_ne hdotted (h Node.linked)
    · exact fun h root => by rw [setting.kept_eq_set h]
  case setDot =>
    intro stem suffix h
    exact (Path.hasOneDot_replaceExtension_iff h stem _).mpr setting.head?_outputExtension_set
  case readDot =>
    intro stem suffix h
    rw [Path.hasOneDot_replaceExtension_iff h, isDotted_iff]

end Setting

end OutlineWiki
