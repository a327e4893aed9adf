import OutlineWiki.Proofs.Outline.Written

/-!
A node is read back from what is written for it.

This holds of every kind of node, given that the lists of nodes in it are read back and that
the type of a link is one that its tag names.
-/

namespace OutlineWiki

open Fields

theorem asList_scan {α : Type} {read : Scan → Decoded α} {write : α → Json} {list : List α}
    (h : ∀ part ∈ list, read (write part).scan = .ok part) :
    Scan.asList read (Json.array (list.map write)).scan = .ok list := by
  rw [Json.scan, Json.itemScans_eq_map, List.map_map, Scan.asList_eq_ok_iff]
  refine ⟨rfl, ?_⟩
  induction list with
  | nil => rfl
  | cons part list ih =>
      obtain ⟨hpart, hlist⟩ := List.forall_mem_cons.mp h
      rw [List.map_cons, List.mapM_cons, Function.comp, hpart]
      simp only [Decoded.bind_eq_ok]
      exact ⟨part, rfl, list, ih hlist, rfl⟩

namespace Node

variable {nodes : Scan → Decoded (List Node)} {fields : List (String × Option Json)}
  {entries : List (Option String × Scan)} {key : String} {depth : Nat} {node : Node}

section Back

variable (h : Holds fields entries)
include h

theorem gives_list {α : Type} {read : Scan → Decoded (List α)} {write : α → Json} {list : List α}
    (hmem : (key, (nonempty list).map fun list => .array (list.map write)) ∈ fields)
    (hread : list ≠ [] → read (Json.array (list.map write)).scan = .ok list) :
    FieldGives key read (fun value => .ok (value.getD [])) entries list := by
  cases list with
  | nil => exact h.gives_none hmem rfl
  | cons first list => exact h.gives_some hmem (hread (List.cons_ne_nil first list)) rfl

theorem gives_flag {value : Bool}
    (hmem : (key, if value then some (.bool true) else none) ∈ fields) :
    FieldGives key Scan.asBool (fun value => .ok (value.getD false)) entries value := by
  cases value with
  | false => exact h.gives_none hmem rfl
  | true => exact h.gives_some hmem rfl rfl

theorem gives_string {value : Option String} (hmem : (key, value.map .string) ∈ fields) :
    FieldGives key (Scan.asOption Scan.asString) (fun value => .ok (value.getD none)) entries
      value :=
  h.gives_nullable hmem (fun _ _ => rfl) fun _ heq => by cases heq

theorem gives_nodes {list : Option (List Node)}
    (hmem : (key, list.map fun list => .array (list.map toJson)) ∈ fields)
    (hread : ∀ part ∈ list, nodes (Json.array (part.map toJson)).scan = .ok part) :
    FieldGives key (Scan.asOption nodes) (fun value => .ok (value.getD none)) entries list :=
  h.gives_nullable hmem hread fun _ heq => by cases heq

end Back

theorem asByte_number (n : UInt8) : (Json.number n.toNat).scan.asByte = .ok n := by
  have hlimit : n.toNat < 0x100 := n.toNat_lt
  have hword : n.toNat ≤ Numeral.wordLimit := Nat.le_trans (Nat.le_of_lt hlimit) (by decide)
  rw [Json.scan, Numeral.amount_ofNat hword, Scan.asByte, Scan.asNatBelow, if_pos hlimit]
  simp [Except.map]

theorem asWord_number (n : UInt32) : (Json.number n.toNat).scan.asWord = .ok n := by
  have hlimit : n.toNat < 0x100000000 := n.toNat_lt
  have hword : n.toNat ≤ Numeral.wordLimit := Nat.le_trans (Nat.le_of_lt hlimit) (by decide)
  rw [Json.scan, Numeral.amount_ofNat hword, Scan.asWord, Scan.asNatBelow, if_pos hlimit]
  simp [Except.map]

theorem asChar_string (c : Char) : (Json.string (String.ofList [c])).scan.asChar = .ok c := by
  simp [Json.scan, Scan.asChar]

/-- The lists of a node are read back from what is written for them. -/
def ListsReadBack (nodes : Scan → Decoded (List Node)) (node : Node) : Prop :=
  ∀ slot list, Slot.written slot node = some list →
    nodes (Json.array (list.map toJson)).scan = .ok list

theorem read_headlineFields {info : HeadlineInfo} {title : List Node}
    (hlists : ListsReadBack nodes node) (hkind : node.kind = .headline info title)
    (h : Holds node.ownFields entries) :
    (headlineFields nodes).read anything entries true = .ok (.headline info title) := by
  have htitle : title ≠ [] → nodes (Json.array (title.map toJson)).scan = .ok title := by
    intro hne
    apply hlists .title title
    simp [Slot.written, hkind, nonempty, hne]
  have htags : info.tags ≠ [] →
      Scan.asList Scan.asString (Json.array (info.tags.map .string)).scan = .ok info.tags :=
    fun _ => asList_scan fun _ _ => rfl
  simp only [ownFields, Slot.field, Slot.key, Slot.written, hkind] at h
  refine read_headlineFields_iff.mpr ⟨rfl, h.keyed, info, title, ?level, ?todo, ?priority, ?tags,
    ?title, ?customId, ?id, ?footnoteSection, rfl⟩
  case level => exact h.gives_some (by simp) (asByte_number info.level) rfl
  case todo | customId | id => exact gives_string h (by simp)
  case priority =>
    exact h.gives_nullable (by simp) (fun c _ => asChar_string c) fun _ heq => by cases heq
  case tags => exact gives_list h (by simp) htags
  case title => exact gives_list h (by simp) htitle
  case footnoteSection => exact gives_flag h (by simp)

theorem read_listItemFields {checkbox : Checkbox} {tag : Option (List Node)}
    (hlists : ListsReadBack nodes node) (hkind : node.kind = .listItem checkbox tag)
    (h : Holds node.ownFields entries) :
    (kindFields nodes "list_item").read anything entries true = .ok (.listItem checkbox tag) := by
  have htag : ∀ list ∈ tag, nodes (Json.array (list.map toJson)).scan = .ok list := by
    intro list hlist
    apply hlists .tag list
    simp only [Slot.written, hkind]
    exact hlist
  simp only [ownFields, Slot.field, Slot.key, Slot.written, hkind] at h
  refine read_listItemFields_iff.mpr ⟨rfl, h.keyed, checkbox, tag, ?checkbox, ?tag, rfl⟩
  case tag => exact gives_nodes h (by simp) htag
  case checkbox =>
    cases checkbox with
    | none => exact h.gives_none (by simp) rfl
    | _ => exact h.gives_some List.mem_cons_self rfl rfl

section Single

variable (h : Holds fields entries)
include h

theorem read_requiredString {value : String} (hmem : (key, some (.string value)) ∈ fields) :
    (Fields.required key Scan.asString).read anything entries true = .ok value :=
  read_field_iff.mpr ⟨rfl, h.keyed, h.gives_some hmem rfl rfl⟩

theorem read_nullableString {value : Option String} (hmem : (key, value.map .string) ∈ fields) :
    (Fields.nullable key Scan.asString).read anything entries true = .ok value :=
  read_field_iff.mpr ⟨rfl, h.keyed, gives_string h hmem⟩

theorem read_optionalVariant {α : Type} [DecidableEq α] {variants : List (String × α)}
    {default value : α} (hmem : (key, some (.string (variantName variants value))) ∈ fields)
    (hname : Scan.variantNamed variants (variantName variants value) = .ok value) :
    (Fields.optional key default (Scan.asVariant variants)).read anything entries true =
      .ok value :=
  read_field_iff.mpr ⟨rfl, h.keyed, h.gives_some hmem hname rfl⟩

end Single

/-- What is made of two fields is read when both of them are. -/
theorem read_pair {α β γ : Type} (make : α → β → γ) {first : Fields α} {second : Fields β}
    {part : α} {other : β} (hf : first.Lawful) (hs : second.Lawful)
    (hd : (first.keys.any fun key => second.keys.contains key) = false)
    (hfirst : first.read anything entries true = .ok part)
    (hsecond : second.read anything entries true = .ok other) :
    (make <$> first <*> second).read anything entries true = .ok (make part other) := by
  have hmade : (make <$> first).read anything entries true = .ok (make part) :=
    (read_map_iff make hf).mpr ⟨part, hfirst, rfl⟩
  exact (read_seq_iff (lawful_map make hf) hs hd).mpr ⟨_, other, hmade, hsecond, rfl⟩

theorem read_tableFields {type : TableType} {value : Option String}
    (hkind : node.kind = .table type value) (h : Holds node.ownFields entries) :
    (kindFields nodes "table").read anything entries true = .ok (.table type value) := by
  simp only [ownFields, hkind] at h
  have htype : (Fields.optional "table_type" .rows (Scan.asVariant tableTypes)).read anything
      entries true = .ok type :=
    read_optionalVariant h List.mem_cons_self (by cases type <;> rfl)
  have hvalue : (Fields.nullable "value" Scan.asString).read anything entries true = .ok value :=
    read_nullableString h (by simp)
  exact read_pair _ (lawful_field _ _ _) (lawful_field _ _ _) rfl htype hvalue

theorem read_linkFields {type : LinkType} {path : String} (hkind : node.kind = .link type path)
    (hlink : LinkType.ofTag type.tag = type) (h : Holds node.ownFields entries) :
    (kindFields nodes "link").read anything entries true = .ok (.link type path) := by
  simp only [ownFields, hkind] at h
  have htype : (Fields.required "link_type" Scan.asString).read anything entries true =
      .ok type.tag :=
    read_requiredString h List.mem_cons_self
  have hpath : (Fields.required "path" Scan.asString).read anything entries true = .ok path :=
    read_requiredString h (by simp)
  have hread : (kindFields nodes "link").read anything entries true =
      .ok (.link (LinkType.ofTag type.tag) path) :=
    read_pair _ (lawful_field _ _ _) (lawful_field _ _ _) rfl htype hpath
  rw [hread, hlink]

theorem read_sourceFields {language : Option String} {value : String} {numberLines : Bool}
    (hkind : node.kind = .sourceBlock language value numberLines)
    (h : Holds node.ownFields entries) :
    (kindFields nodes "src_block").read anything entries true =
      .ok (.sourceBlock language value numberLines) := by
  simp only [ownFields, hkind] at h
  have hlanguage : (Fields.nullable "language" Scan.asString).read anything entries true =
      .ok language :=
    read_nullableString h List.mem_cons_self
  have hvalue : valueField.read anything entries true = .ok value :=
    read_requiredString h (by simp)
  have hnumbers : (Fields.optional "number_lines" false Scan.asBool).read anything entries true =
      .ok numberLines :=
    read_field_iff.mpr ⟨rfl, h.keyed, gives_flag h (by simp)⟩
  refine (read_seq_iff (lawful_seq (lawful_map _ (lawful_field _ _ _)) (lawful_field _ _ _))
    (lawful_field _ _ _) rfl).mpr ⟨_, numberLines, ?_, hnumbers, rfl⟩
  exact read_pair _ (lawful_field _ _ _) (lawful_field _ _ _) rfl hlanguage hvalue

/-- A kind is read back from its own fields. -/
theorem read_kindFields (hlists : ListsReadBack nodes node)
    (hlink : ∀ type path, node.kind = .link type path → LinkType.ofTag type.tag = type)
    (h : Holds node.ownFields entries) :
    (kindFields nodes node.kind.name).read anything entries true = .ok node.kind := by
  cases hkind : node.kind with
  | headline info title => exact read_headlineFields hlists hkind h
  | listItem checkbox tag => exact read_listItemFields hlists hkind h
  | table type value => exact read_tableFields hkind h
  | link type path => exact read_linkFields hkind (hlink type path hkind) h
  | sourceBlock language value numberLines => exact read_sourceFields hkind h
  | plainList type =>
      simp only [ownFields, hkind] at h
      have htype : (Fields.optional "list_type" .unordered (Scan.asVariant listTypes)).read
          anything entries true = .ok type :=
        read_optionalVariant h List.mem_cons_self (by cases type <;> rfl)
      exact (read_map_iff _ (lawful_field _ _ _)).mpr ⟨type, htype, rfl⟩
  | tableRow type =>
      simp only [ownFields, hkind] at h
      have htype : (Fields.optional "row_type" .standard (Scan.asVariant rowTypes)).read
          anything entries true = .ok type :=
        read_optionalVariant h List.mem_cons_self (by cases type <;> rfl)
      exact (read_map_iff _ (lawful_field _ _ _)).mpr ⟨type, htype, rfl⟩
  | footnoteReference label =>
      simp only [ownFields, hkind] at h
      exact (read_map_iff _ (lawful_field _ _ _)).mpr
        ⟨label, read_nullableString h List.mem_cons_self, rfl⟩
  | footnoteDefinition value | code value | verbatim value | exampleBlock value
  | fixedWidth value | plainText value =>
      simp only [ownFields, hkind] at h
      exact (read_map_iff _ (lawful_field _ _ _)).mpr
        ⟨value, read_requiredString h List.mem_cons_self, rfl⟩
  | _ => exact read_constant_iff.mpr ⟨rfl, h.keyed, rfl⟩

theorem read_sharedFields (hlists : ListsReadBack nodes node) (h : Holds node.fields entries) :
    (commonFields nodes).read anything entries true =
      .ok ⟨node.children, node.postBlank, node.name, node.caption⟩ := by
  have hchildren : node.children ≠ [] →
      nodes (Json.array (node.children.map toJson)).scan = .ok node.children :=
    fun hne => hlists .children _ (nonempty_eq_some_iff.mpr ⟨hne, rfl⟩)
  have hmem : ∀ field ∈ node.sharedFields, field ∈ node.fields :=
    fun field hfield => List.mem_cons_of_mem _ (List.mem_append_right _ hfield)
  simp only [sharedFields, Slot.field, Slot.written, Slot.key] at hmem
  refine read_commonFields_iff.mpr ⟨rfl, h.keyed, ?children, ?postBlank, ?name, ?caption⟩
  case children => exact gives_list h (hmem _ (by simp)) hchildren
  case postBlank =>
    exact h.gives_nullable (hmem _ (by simp)) (fun n _ => asWord_number n) fun _ heq => by
      cases heq
  case name => exact gives_string h (hmem _ (by simp))
  case caption => exact gives_nodes h (hmem _ (by simp)) (hlists .caption)

/-- The fields that are kept until the kind is known. -/
def keptFields (node : Node) : List (String × Option Json) :=
  ("type", some (.string node.kind.name)) :: node.ownFields

theorem notMem_keys_of_kept {field : String × Option Json} (h : field ∈ node.keptFields) :
    field.1 ∉ (commonFields nodes).keys := by
  have hnodup := nodup_fields node
  have hsplit : node.fields = node.keptFields ++ node.sharedFields := rfl
  rw [hsplit, List.map_append, List.nodup_append] at hnodup
  intro hshared
  exact hnodup.2.2 field.1 (List.mem_map_of_mem h) field.1 hshared rfl

theorem readKind_written (hlists : ListsReadBack nodes node)
    (hlink : ∀ type path, node.kind = .link type path → LinkType.ofTag type.tag = type)
    (h : Holds node.fields entries) :
    readKind nodes ((commonFields nodes).others entries) = .ok node.kind := by
  -- The kind reads what the fields of all nodes leave, and then what its name leaves.
  have hkept : Holds node.keptFields ((commonFields nodes).others entries) :=
    h.others fun field hfield => ⟨List.mem_append_left _ hfield, notMem_keys_of_kept hfield⟩
  have hown : Holds node.ownFields (typeField.others ((commonFields nodes).others entries)) := by
    refine hkept.others fun field hfield => ⟨List.mem_cons_of_mem _ hfield, fun htype => ?_⟩
    have hfresh := (List.nodup_cons.mp (nodup_fields node)).1
    have hkey : field.1 ∈ (node.ownFields ++ node.sharedFields).map Prod.fst :=
      List.mem_map_of_mem (List.mem_append_left _ hfield)
    rw [List.mem_singleton.mp htype] at hkey
    exact hfresh hkey
  exact readKind_eq_ok_iff.mpr ⟨node.kind.name,
    read_field_iff.mpr ⟨rfl, hkept.keyed, hkept.gives_some List.mem_cons_self rfl rfl⟩,
    read_kindFields hlists hlink hown⟩

/-- A written value may be kept as long as it is not nested too deep. -/
theorem FieldValue.isWhole
    (hw : ∀ scan list, nodes scan = .ok list → Scan.isWhole depth scan = true)
    (hlists : ListsReadBack nodes node) {json : Json} (h : node.FieldValue json)
    (hn : json.nesting ≤ depth) : Scan.isWhole depth json.scan = true := by
  cases h with
  | string value => exact isWhole_of_scalar rfl
  | flag => exact isWhole_of_scalar rfl
  | number fits =>
      rw [Json.scan, Numeral.amount_ofNat fits]
      exact isWhole_of_scalar rfl
  | nodes written => exact hw _ _ (hlists _ _ written)
  | @tags info title kind given =>
      obtain ⟨below, rfl⟩ : ∃ below, depth = below + 1 := by
        rw [Json.nesting] at hn
        exact ⟨depth - 1, by omega⟩
      have hread : Scan.asList Scan.asString (Json.array (info.tags.map .string)).scan =
          .ok info.tags := asList_scan fun _ _ => rfl
      exact isWhole_of_asList (fun _ _ => isWhole_of_asString) hread

/-- A node is read back from its written entries, given that the lists in it are. -/
theorem readEntries_written (hn : Scan.Steady nodes)
    (hw : ∀ scan list, nodes scan = .ok list → Scan.isWhole depth scan = true)
    (hlists : ListsReadBack nodes node) (hid : node.id = 0)
    (hlink : ∀ type path, node.kind = .link type path → LinkType.ofTag type.tag = type)
    (hnesting : ∀ entry ∈ present node.fields, entry.2.nesting ≤ depth) :
    readEntries nodes depth (Json.entryScans (present node.fields)) true = .ok node := by
  have h : Holds node.fields (Json.entryScans (present node.fields)) :=
    holds_present (nodup_fields node)
  have hnode : node = ⟨node.kind, node.children, node.postBlank, node.name, node.caption, 0⟩ := by
    cases node
    cases hid
    rfl
  refine (readEntries_eq_ok_iff hn).mpr ⟨_, node.kind, read_sharedFields hlists h, ?_,
    readKind_written hlists hlink h, hnode⟩
  intro entry hentry _ _ _
  rw [Json.entryScans_eq_map] at hentry
  obtain ⟨⟨key, json⟩, hmem, rfl⟩ := List.mem_map.mp hentry
  exact (fieldValue_of_mem (mem_present_iff.mp hmem) rfl).isWhole hw hlists (hnesting _ hmem)

end Node
end OutlineWiki
