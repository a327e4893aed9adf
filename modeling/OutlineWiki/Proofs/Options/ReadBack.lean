import OutlineWiki.Options.Json
import OutlineWiki.Proofs.Outline.ReadBack

/-!
Options are read back from what is written for them.

Every option is read from the value under its own key, and a missing key means its default. So
some of the fields that are written for options give these options back, in whatever order and
among whatever other fields they stand, and leave the default everywhere else.
-/

namespace OutlineWiki

open Fields

/-- The text of a value is whole, so that the value may be passed over. -/
theorem Source.isFormed_scan (source : Source) : source.scan.isFormed = true := by
  induction source using part_induction with
  | scalar before token after =>
      have hscalar := token.isScalar
      rw [scan]
      cases hvalue : token.value <;> simp_all [Scan.isScalar, Scan.isFormed]
  | array before inner items after ih =>
      rw [scan, Scan.isFormed, Bool.true_and]
      induction items with
      | nil => rfl
      | cons item items hitems =>
          obtain ⟨hitem, hrest⟩ := List.forall_mem_cons.mp ih
          rw [itemScans, Scan.areFormed, hitem, hitems hrest]
          rfl
  | object before inner entries after ih =>
      rw [scan, Scan.isFormed, Bool.true_and]
      induction entries with
      | nil => rfl
      | cons entry entries hentries =>
          obtain ⟨hentry, hrest⟩ := List.forall_mem_cons.mp ih
          rw [entryScans, Scan.areEntriesFormed, hentry, hentries hrest]
          rfl

section Wordings

variable {wordings known : List (String × String)} {key value : String}

theorem putWording_of_notMem (h : key ∉ known.map Prod.fst) :
    putWording known key value = known ++ [(key, value)] := by
  induction known with
  | nil => rfl
  | cons entry known ih =>
      rw [List.map_cons, List.mem_cons, not_or] at h
      rw [putWording, if_neg (Ne.symm h.1), ih h.2, List.cons_append]

/-- Wordings for different keys are all kept, in order. -/
theorem foldl_putWording (h : ((known ++ wordings).map Prod.fst).Nodup) :
    wordings.foldl (fun known entry => putWording known entry.1 entry.2) known =
      known ++ wordings := by
  induction wordings generalizing known with
  | nil => rw [List.foldl_nil, List.append_nil]
  | cons entry wordings ih =>
      have hfresh : entry.1 ∉ known.map Prod.fst := by
        rw [List.map_append, List.map_cons] at h
        exact fun hmem => List.disjoint_of_nodup_append h hmem List.mem_cons_self
      rw [List.foldl_cons, putWording_of_notMem hfresh, ih (by simpa using h)]
      simp

theorem asWordings_scan (h : (wordings.map Prod.fst).Nodup) :
    asWordings (Json.object (wordings.map fun entry => (entry.1, .string entry.2))).scan =
      .ok wordings := by
  have hread : (Json.entryScans (wordings.map fun entry => (entry.1, .string entry.2))).mapM
      (Scan.asEntry Scan.asString) = .ok wordings := by
    clear h
    induction wordings with
    | nil => rfl
    | cons entry wordings ih =>
        rw [List.map_cons, Json.entryScans, List.mapM_cons]
        simp only [Decoded.bind_eq_ok]
        exact ⟨entry, rfl, wordings, ih, rfl⟩
  have hentries : Scan.asEntries Scan.asString
      (Json.object (wordings.map fun entry => (entry.1, .string entry.2))).scan =
        .ok wordings := by
    rw [Json.scan, Scan.asEntries, hread]
    rfl
  rw [asWordings, hentries]
  exact congrArg Except.ok (@foldl_putWording wordings [] h)

end Wordings

namespace Fields

variable {α β : Type} {entries : List (Option String × Scan)}

/-- The reader keeps to its keys and makes the value of the entries. -/
structure Yields (fields : Fields α) (entries : List (Option String × Scan)) (value : α) :
    Prop where
  lawful : fields.Lawful
  read : fields.read anything entries true = .ok value

theorem Yields.seq {first : Fields (α → β)} {second : Fields α} {make : α → β} {part : α}
    (hf : first.Yields entries make) (hs : second.Yields entries part)
    (hd : (first.keys.any fun key => second.keys.contains key) = false) :
    (first <*> second).Yields entries (make part) where
  lawful := lawful_seq hf.lawful hs.lawful
  read := (read_seq_iff hf.lawful hs.lawful hd).mpr ⟨make, part, hf.read, hs.read, rfl⟩

theorem Yields.map {fields : Fields α} {part : α} (f : α → β) (h : fields.Yields entries part) :
    (f <$> fields).Yields entries (f part) where
  lawful := lawful_map f h.lawful
  read := (read_map_iff f h.lawful).mpr ⟨part, h.read, rfl⟩

end Fields

/-- The fields stand among the entries when the entries are those written for them, put in any
order and mixed with others. -/
theorem holds_of_perm {fields : List (String × Option Json)}
    {entries others : List (Option String × Scan)} (hn : (fields.map Prod.fst).Nodup)
    (hp : entries.Perm (Json.entryScans (present fields) ++ others))
    (ho : ∀ entry ∈ others, ∃ key, entry.1 = some key ∧ key ∉ fields.map Prod.fst) :
    Holds fields entries := by
  have hpresent := holds_present hn
  constructor
  case keyed =>
    intro entry hentry
    obtain hwritten | hother := List.mem_append.mp (hp.mem_iff.mp hentry)
    · exact hpresent.keyed entry hwritten
    · obtain ⟨key, hkey, _⟩ := ho entry hother
      rw [hkey]
      rfl
  case values =>
    intro field hfield
    have hnone : valuesOf field.1 others = [] := by
      rw [valuesOf, List.filterMap_eq_nil_iff]
      intro entry hentry
      obtain ⟨key, hkey, hunknown⟩ := ho entry hentry
      refine if_neg fun heq => hunknown ?_
      rw [hkey, Option.some.injEq] at heq
      exact heq ▸ List.mem_map_of_mem hfield
    have hvalues : (valuesOf field.1 entries).Perm
        (valuesOf field.1 (Json.entryScans (present fields)) ++ valuesOf field.1 others) := by
      have hall := hp.filterMap fun entry => if entry.1 = some field.1 then some entry.2 else none
      rwa [List.filterMap_append] at hall
    rw [hnone, List.append_nil, hpresent.values field hfield] at hvalues
    cases hjson : field.2 with
    | none => rw [hjson] at hvalues; exact hvalues.eq_nil
    | some json => rw [hjson] at hvalues; exact hvalues.eq_singleton

namespace Options

/-- The entries of the object that is written for options. -/
def written (options : Options) : List (String × Json) :=
  match options.toJson with
  | .object entries => entries
  | _ => []

theorem toJson_eq (options : Options) : options.toJson = .object options.written :=
  rfl

/-- The value under a key, if it is one of the keys, and else the default. -/
def pick {α : Type} (keys : List String) (key : String) (value default : α) : α :=
  if key ∈ keys then value else default

/-- The defaults with the values of the options under some of the keys. -/
def restrict (options : Options) (keys : List String) : Options :=
  let default : Options := {}
  { withTodoKeywords :=
      pick keys "with-todo-keywords" options.withTodoKeywords default.withTodoKeywords
    withTags := pick keys "with-tags" options.withTags default.withTags
    withPriority := pick keys "with-priority" options.withPriority default.withPriority
    withSmartQuotes :=
      pick keys "with-smart-quotes" options.withSmartQuotes default.withSmartQuotes
    withSpecialStrings :=
      pick keys "with-special-strings" options.withSpecialStrings default.withSpecialStrings
    preserveBreaks := pick keys "preserve-breaks" options.preserveBreaks default.preserveBreaks
    headlineStyle := pick keys "headline-style" options.headlineStyle default.headlineStyle
    defaultTableClass :=
      pick keys "default-table-class" options.defaultTableClass default.defaultTableClass
    footnoteReferenceFormat :=
      pick keys "footnote-reference-format" options.footnoteReferenceFormat
        default.footnoteReferenceFormat
    footnoteSeparator :=
      pick keys "footnote-separator" options.footnoteSeparator default.footnoteSeparator
    footnotesSectionTemplate :=
      pick keys "footnotes-section-template" options.footnotesSectionTemplate
        default.footnotesSectionTemplate
    outputExtension :=
      pick keys "output-extension" options.outputExtension default.outputExtension
    inlineImageExtensions :=
      pick keys "inline-image-extensions" options.inlineImageExtensions
        default.inlineImageExtensions
    language := pick keys "language" options.language default.language
    wordings := pick keys "translations" options.wordings default.wordings }

/-- The written fields of options, with a value under some of the keys only. -/
def chosenFields (options : Options) (keys : List String) : List (String × Option Json) :=
  options.written.map fun entry => (entry.1, if entry.1 ∈ keys then some entry.2 else none)

variable {options : Options} {keys : List String} {entries : List (Option String × Scan)}

theorem map_fst_chosenFields (options : Options) (keys : List String) :
    (options.chosenFields keys).map Prod.fst = options.written.map Prod.fst := by
  rw [chosenFields, List.map_map]
  rfl

/-- The keys that are written are those that are read, and all different. -/
theorem nodup_chosenFields (options : Options) (keys : List String) :
    ((options.chosenFields keys).map Prod.fst).Nodup := by
  rw [map_fst_chosenFields]
  change fields.keys.Nodup
  decide

theorem present_chosenFields (options : Options) (keys : List String) :
    present (options.chosenFields keys) =
      options.written.filter fun entry => entry.1 ∈ keys := by
  rw [present, chosenFields, List.filterMap_map, ← List.filterMap_eq_filter]
  refine List.filterMap_congr fun entry _ => ?_
  by_cases hkey : entry.1 ∈ keys <;> simp [hkey, Option.guard]

theorem asHeadlineStyle_string (style : HeadlineStyle) :
    asHeadlineStyle (Json.string style.name).scan = .ok style := by
  cases style <;> rfl

theorem asTableClass_scan (name : Option String) :
    Scan.asOption Scan.asString (name.elim Json.null .string).scan = .ok name := by
  cases name <;> rfl

section Chosen

variable (h : Holds (options.chosenFields keys) entries)
include h

/-- An option is read from its value, or has its default when its key is not among the keys. -/
theorem yields_optional {α : Type} {key : String} {value default : α} {read : Scan → Decoded α}
    {json : Json} (hread : read json.scan = .ok value) (hmem : (key, json) ∈ options.written) :
    (Fields.optional key default read).Yields entries (pick keys key value default) := by
  refine ⟨lawful_field _ _ _, read_field_iff.mpr ⟨rfl, h.keyed, ?_⟩⟩
  have hfield : (key, if key ∈ keys then some json else none) ∈ options.chosenFields keys :=
    List.mem_map_of_mem hmem
  rw [pick]
  split at hfield
  · next hkey => rw [if_pos hkey]; exact h.gives_some hfield hread rfl
  · next hkey => rw [if_neg hkey]; exact h.gives_none hfield rfl

theorem yields_fields (hw : (options.wordings.map Prod.fst).Nodup) :
    fields.Yields entries (options.restrict keys) := by
  have hstring : ∀ value : String, Scan.asString (Json.string value).scan = .ok value :=
    fun _ => rfl
  have hbool : ∀ value : Bool, Scan.asBool (Json.bool value).scan = .ok value := fun _ => rfl
  have hlist : ∀ values : List String,
      Scan.asList Scan.asString (Json.array (values.map .string)).scan = .ok values :=
    fun _ => asList_scan fun _ _ => rfl
  refine .seq ?_ (yields_optional h (asWordings_scan hw) (by simp [written, toJson])) rfl
  refine .seq ?_ (yields_optional h (hstring _) (by simp [written, toJson])) rfl
  refine .seq ?_ (yields_optional h (hlist _) (by simp [written, toJson])) rfl
  refine .seq ?_ (yields_optional h (hstring _) (by simp [written, toJson])) rfl
  refine .seq ?_ (yields_optional h (hstring _) (by simp [written, toJson])) rfl
  refine .seq ?_ (yields_optional h (hstring _) (by simp [written, toJson])) rfl
  refine .seq ?_ (yields_optional h (hstring _) (by simp [written, toJson])) rfl
  refine .seq ?_ (yields_optional h (asTableClass_scan _) (by simp [written, toJson])) rfl
  refine .seq ?_ (yields_optional h (asHeadlineStyle_string _) (by simp [written, toJson])) rfl
  refine .seq ?_ (yields_optional h (hbool _) (by simp [written, toJson])) rfl
  refine .seq ?_ (yields_optional h (hbool _) (by simp [written, toJson])) rfl
  refine .seq ?_ (yields_optional h (hbool _) (by simp [written, toJson])) rfl
  refine .seq ?_ (yields_optional h (hbool _) (by simp [written, toJson])) rfl
  refine .seq ?_ (yields_optional h (hbool _) (by simp [written, toJson])) rfl
  exact .map Options.mk (yields_optional h (hbool _) (by simp [written, toJson]))

end Chosen

theorem read_of_holds {closed : Bool} (hclosed : closed = true)
    (hw : (options.wordings.map Prod.fst).Nodup) (h : Holds (options.chosenFields keys) entries)
    (hformed : ∀ entry ∈ entries, entry.2.isFormed = true) :
    read (.object entries closed) = .ok (options.restrict keys) := by
  obtain ⟨hlawful, hread⟩ := yields_fields h hw
  subst hclosed
  exact (read_accepts_iff hlawful).mpr ⟨hread, fun entry hentry _ _ _ => hformed entry hentry⟩

/-- All keys together leave no default. -/
theorem restrict_written (options : Options) :
    options.restrict (options.written.map Prod.fst) = options := by
  simp [restrict, pick, written, toJson]

theorem ofText_eq_of_scan {text : List Char} {scan : Scan}
    (h : Scan.ofText text = (scan, true)) (hread : read scan = .ok options) :
    ofText text = .ok options := by
  rw [ofText, h]
  exact Decoded.bind_eq_ok.mpr ⟨options, hread, rfl⟩

/-- An object with some of the fields that are written for options, in any order, in any spelling
and among other fields, gives the options under these keys and the defaults under all others. The
text that is written for options gives these options back. -/
theorem ofText_restrict (options : Options) (hw : (options.wordings.map Prod.fst).Nodup) :
    (∀ (keys : List String) (before inner after : Space) (entries : List (Label × Source))
        (others : List (Option String × Scan)),
      (Source.entryScans entries).Perm
        (Json.entryScans (options.written.filter fun entry => entry.1 ∈ keys) ++ others) →
      (∀ entry ∈ others, ∃ key, entry.1 = some key ∧ key ∉ options.written.map Prod.fst) →
      ofText (Source.object before inner entries after).text = .ok (options.restrict keys)) ∧
    ofText options.text = .ok options := by
  constructor
  · intro keys before inner after entries others hperm hothers
    rw [← present_chosenFields] at hperm
    have hholds : Holds (options.chosenFields keys) (Source.entryScans entries) := by
      refine holds_of_perm (nodup_chosenFields options keys) hperm ?_
      rw [map_fst_chosenFields]
      exact hothers
    refine ofText_eq_of_scan (Source.ofText_text _) (read_of_holds rfl hw hholds ?_)
    intro entry hentry
    rw [Source.entryScans_eq_map] at hentry
    obtain ⟨source, _, rfl⟩ := List.mem_map.mp hentry
    exact source.2.isFormed_scan
  · have hholds : Holds (options.chosenFields (options.written.map Prod.fst))
        (Json.entryScans options.written) := by
      have hall : (options.written.filter fun entry => entry.1 ∈ options.written.map Prod.fst) =
          options.written :=
        List.filter_eq_self.mpr fun entry hentry =>
          decide_eq_true (List.mem_map_of_mem hentry)
      have hpresent := holds_present (nodup_chosenFields options (options.written.map Prod.fst))
      rwa [present_chosenFields, hall] at hpresent
    have hread := read_of_holds rfl hw hholds ?formed
    case formed =>
      intro entry hentry
      rw [Json.entryScans_eq_map] at hentry
      obtain ⟨⟨key, json⟩, _, rfl⟩ := List.mem_map.mp hentry
      obtain ⟨source, _, hscan⟩ := json.exists_source
      exact hscan ▸ source.isFormed_scan
    rw [restrict_written] at hread
    exact ofText_eq_of_scan (Json.ofText_text options.toJson) hread

/-- Options without a table class, and with a wording of their own. -/
def classless : Options :=
  { defaultTableClass := none, language := "de", wordings := [("Footnotes", "Notes")] }

theorem ofText_restrict_classless :
    (classless.wordings.map Prod.fst).Nodup ∧
      ofText "\x7b\"unknown\":[],\"default-table-class\":null\x7d".toList =
        .ok { defaultTableClass := none } ∧
      ofText "\x7b\"unknown\":[]\x7d".toList = .ok {} ∧
      ofText classless.text = .ok classless := by
  have hw : (classless.wordings.map Prod.fst).Nodup := by decide
  obtain ⟨hpart, hall⟩ := ofText_restrict classless hw
  -- The same unknown field stands before the one field, and alone.
  have hread : ∀ (keys : List String) (chosen : List (String × Json)),
      (classless.written.filter fun entry => entry.1 ∈ keys) = chosen →
      ofText (Json.object (("unknown", .array []) :: chosen)).text =
        .ok (classless.restrict keys) := by
    intro keys chosen hchosen
    obtain ⟨sources, htexts, hscans⟩ :=
      Json.exists_entrySources (("unknown", .array []) :: chosen)
    have htext : (Source.object .empty .empty sources .empty).text =
        (Json.object (("unknown", .array []) :: chosen)).text := by
      rw [Source.text, Source.entryTexts_eq_map, htexts, Json.enclosed_entries]
      simp [Space.empty, Json.text]
    rw [← htext]
    refine hpart keys .empty .empty .empty sources [(some "unknown", .array [] true)] ?_ ?_
    · rw [Source.entryScans_eq_map, hscans, hchosen, Json.entryScans_eq_map]
      exact List.perm_append_singleton _ _ |>.symm
    · exact List.forall_mem_singleton.mpr ⟨"unknown", rfl, by decide⟩
  exact ⟨hw, hread ["default-table-class"] [("default-table-class", .null)] rfl,
    hread [] [] rfl, hall⟩

end Options
end OutlineWiki
