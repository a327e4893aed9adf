import OutlineWiki.Outline.Encode
import OutlineWiki.Proofs.Json.Writing
import OutlineWiki.Proofs.Outline.Placement
import OutlineWiki.Proofs.Outline.Walk

/-!
The fields of a written node.

Each field has a value that may be missing, and only those that are there are written. No
field is written twice, so that a reader finds under each key what was written there, whatever
other fields there are.
-/

namespace OutlineWiki

open Fields

/-- The fields that have a value. -/
def present (fields : List (String × Option Json)) : List (String × Json) :=
  fields.filterMap fun field => field.2.map (field.1, ·)

/-- Each of the fields stands once among the entries of an object, if it has a value. -/
structure Holds (fields : List (String × Option Json)) (entries : List (Option String × Scan)) :
    Prop where
  keyed : Keyed entries
  values : ∀ field ∈ fields, valuesOf field.1 entries = field.2.toList.map Json.scan

theorem keyed_entryScans (entries : List (String × Json)) : Keyed (Json.entryScans entries) := by
  intro entry hentry
  rw [Json.entryScans_eq_map] at hentry
  obtain ⟨_, _, rfl⟩ := List.mem_map.mp hentry
  rfl

theorem valuesOf_present_cons (key own : String) (value : Option Json)
    (fields : List (String × Option Json)) :
    valuesOf key (Json.entryScans (present ((own, value) :: fields))) =
      (if own = key then value.toList.map Json.scan else []) ++
        valuesOf key (Json.entryScans (present fields)) := by
  cases value with
  | none => simp [present]
  | some json =>
      have hpresent : present ((own, some json) :: fields) = (own, json) :: present fields := rfl
      rw [hpresent, Json.entryScans]
      split
      · next h => rw [h, valuesOf_cons_self]; rfl
      · next h => rw [valuesOf_cons_of_ne (by simpa using h)]; rfl

theorem valuesOf_present_of_notMem {key : String} {fields : List (String × Option Json)}
    (h : key ∉ fields.map Prod.fst) : valuesOf key (Json.entryScans (present fields)) = [] := by
  induction fields with
  | nil => rfl
  | cons field fields ih =>
      rw [List.map_cons, List.mem_cons, not_or] at h
      rw [valuesOf_present_cons, if_neg (Ne.symm h.1), ih h.2]
      rfl

theorem holds_present {fields : List (String × Option Json)}
    (h : (fields.map Prod.fst).Nodup) : Holds fields (Json.entryScans (present fields)) := by
  refine ⟨keyed_entryScans _, ?_⟩
  induction fields with
  | nil => exact List.forall_mem_nil _
  | cons field fields ih =>
      obtain ⟨hfresh, hrest⟩ := List.nodup_cons.mp h
      rw [List.forall_mem_cons]
      constructor
      · rw [valuesOf_present_cons, if_pos rfl, valuesOf_present_of_notMem hfresh, List.append_nil]
      · intro other hother
        have hne : field.1 ≠ other.1 := fun heq => hfresh (heq ▸ List.mem_map_of_mem hother)
        rw [valuesOf_present_cons, if_neg hne, ih hrest other hother]
        rfl

theorem valuesOf_others {α : Type} {reader : Fields α} {key : String} (h : key ∉ reader.keys)
    (entries : List (Option String × Scan)) :
    valuesOf key (reader.others entries) = valuesOf key entries := by
  rw [valuesOf, valuesOf, Fields.others, List.filterMap_filter]
  refine List.filterMap_congr fun entry _ => ?_
  by_cases hkey : entry.1 = some key
  · have hunknown : (reader.keys.any fun own => some own == entry.1) = false := by
      rw [List.any_eq_false]
      intro own hown heq
      rw [hkey, beq_iff_eq, Option.some.injEq] at heq
      exact h (heq ▸ hown)
    rw [hunknown]
    rfl
  · rw [if_neg hkey]
    split <;> rfl

namespace Holds

variable {α β : Type} {fields : List (String × Option Json)}
  {entries : List (Option String × Scan)} (h : Holds fields entries) {key : String}
  {read : Scan → Decoded α}

include h

/-- What another reader leaves holds the fields that the reader does not know. -/
theorem others {reader : Fields β} {rest : List (String × Option Json)}
    (hrest : ∀ field ∈ rest, field ∈ fields ∧ field.1 ∉ reader.keys) :
    Holds rest (reader.others entries) := by
  refine ⟨fun entry hentry => h.keyed entry (List.mem_of_mem_filter hentry), ?_⟩
  intro field hfield
  obtain ⟨hmem, hunknown⟩ := hrest field hfield
  rw [valuesOf_others hunknown, h.values field hmem]

theorem gives_some {finish : Option α → Decoded β} {json : Json} {part : α} {result : β}
    (hmem : (key, some json) ∈ fields) (hread : read json.scan = .ok part)
    (hfinish : finish (some part) = .ok result) :
    FieldGives key read finish entries result :=
  .inr ⟨json.scan, part, h.values _ hmem, hread, hfinish⟩

theorem gives_none {finish : Option α → Decoded β} {result : β} (hmem : (key, none) ∈ fields)
    (hfinish : finish none = .ok result) : FieldGives key read finish entries result :=
  .inl ⟨h.values _ hmem, hfinish⟩

/-- A field that may be missing, given how its value is written. -/
theorem gives_nullable {write : α → Json} {value : Option α}
    (hmem : (key, value.map write) ∈ fields)
    (hread : ∀ part ∈ value, read (write part).scan = .ok part)
    (hnull : ∀ part, (write part).scan ≠ .null) :
    FieldGives key (Scan.asOption read) (fun value => .ok (value.getD none)) entries value := by
  cases value with
  | none => exact h.gives_none hmem rfl
  | some part =>
      refine h.gives_some hmem ?_ rfl
      rw [Scan.asOption, hread part rfl]
      · rfl
      · exact hnull part

end Holds

namespace Node

/-- The list, unless it is empty. -/
def nonempty {α : Type} (list : List α) : Option (List α) :=
  if list.isEmpty then none else some list

/-- The nodes that are written in a place. A list that may be missing is written when it is empty,
and any other list is not. -/
def Slot.written : Slot → Node → Option (List Node)
  | children, node => nonempty node.children
  | caption, node => node.caption
  | title, node =>
    match node.kind with
    | .headline _ list => nonempty list
    | _ => none
  | tag, node =>
    match node.kind with
    | .listItem _ list => list
    | _ => none

def Slot.field (slot : Slot) (node : Node) : String × Option Json :=
  (slot.key, (slot.written node).map fun list => .array (list.map toJson))

/-- The fields of the kind of a node. -/
def ownFields (node : Node) : List (String × Option Json) :=
  match node.kind with
  | .headline info _ =>
    [("level", some (.number info.level.toNat)), ("todo", info.todo.map .string),
      ("priority", info.priority.map fun c => .string (String.ofList [c])),
      ("tags", (nonempty info.tags).map fun tags => .array (tags.map .string)),
      Slot.title.field node, ("custom_id", info.customId.map .string),
      ("id", info.id.map .string),
      ("footnote_section", if info.footnoteSection then some (.bool true) else none)]
  | .plainList type => [("list_type", some (.string (variantName listTypes type)))]
  | .listItem checkbox _ =>
    [("checkbox", if checkbox = .none then none
        else some (.string (variantName checkboxes checkbox))),
      Slot.tag.field node]
  | .table type value =>
    [("table_type", some (.string (variantName tableTypes type))), ("value", value.map .string)]
  | .tableRow type => [("row_type", some (.string (variantName rowTypes type)))]
  | .link type path => [("link_type", some (.string type.tag)), ("path", some (.string path))]
  | .footnoteReference label => [("label", label.map .string)]
  | .footnoteDefinition label => [("label", some (.string label))]
  | .code value | .verbatim value | .exampleBlock value | .fixedWidth value
  | .plainText value => [("value", some (.string value))]
  | .sourceBlock language value numberLines =>
    [("language", language.map .string), ("value", some (.string value)),
      ("number_lines", if numberLines then some (.bool true) else none)]
  | _ => []

/-- The fields that every node has. -/
def sharedFields (node : Node) : List (String × Option Json) :=
  [Slot.children.field node, ("post_blank", node.postBlank.map fun n => .number n.toNat),
    ("name", node.name.map .string), Slot.caption.field node]

/-- The fields of a written node, in order. -/
def fields (node : Node) : List (String × Option Json) :=
  ("type", some (.string node.kind.name)) :: (node.ownFields ++ node.sharedFields)

theorem optionField_eq_present (key : String) (value : Option Json) :
    optionField key value = present [(key, value)] := by
  cases value <;> rfl

theorem flagField_eq_present (key : String) (value : Bool) :
    flagField key value = present [(key, if value then some (.bool true) else none)] := by
  cases value <;> rfl

theorem listField_eq_present {α : Type} (key : String) (write : α → Json) (list : List α) :
    listField key (list.map write) =
      present [(key, (nonempty list).map fun list => .array (list.map write))] := by
  cases list <;> rfl

theorem present_cons_cons (first second : String × Option Json)
    (rest : List (String × Option Json)) :
    present (first :: second :: rest) = present [first] ++ present (second :: rest) :=
  List.filterMap_append (l := [first])

theorem kindEntries_eq_present (node : Node) :
    kindEntries (node.kind.map toJson) = present node.ownFields := by
  obtain ⟨kind, children, postBlank, name, caption, id⟩ := node
  cases kind with
  | headline info title =>
      change headlineEntries info (title.map toJson) = _
      simp only [headlineEntries, ownFields, Slot.field, Slot.written, Slot.key,
        optionField_eq_present, flagField_eq_present, listField_eq_present, present_cons_cons,
        List.append_assoc]
      rfl
  | listItem checkbox tag =>
      cases tag <;> cases checkbox <;> rfl
  | table type value => cases value <;> rfl
  | footnoteReference label => cases label <;> rfl
  | sourceBlock language value numberLines => cases language <;> cases numberLines <;> rfl
  | _ => rfl

theorem toJson_eq (node : Node) : node.toJson = .object (present node.fields) := by
  have hstep : node.toJson = .object (("type", .string node.kind.name) ::
      (kindEntries (node.kind.map toJson) ++ listField "children" (node.children.map toJson) ++
        optionField "post_blank" (node.postBlank.map fun n => .number n.toNat) ++
        optionField "name" (node.name.map .string) ++
        optionField "caption" ((node.caption.map (·.map toJson)).map .array))) := by
    rw [toJson, fold_eq]
    rfl
  have hfields : present node.fields = ("type", .string node.kind.name) ::
      (present node.ownFields ++ present node.sharedFields) :=
    congrArg _ List.filterMap_append
  rw [hstep, hfields, kindEntries_eq_present]
  simp only [sharedFields, Slot.field, Slot.written, Slot.key, optionField_eq_present,
    listField_eq_present, present_cons_cons, Option.map_map, List.append_assoc]
  rfl

theorem mem_present_iff {fields : List (String × Option Json)} {key : String} {json : Json} :
    (key, json) ∈ present fields ↔ (key, some json) ∈ fields := by
  simp only [present, List.mem_filterMap, Option.map_eq_some_iff, Prod.mk.injEq, Prod.exists]
  constructor
  · rintro ⟨own, _, hmem, _, rfl, rfl, rfl⟩
    exact hmem
  · exact fun hmem => ⟨key, some json, hmem, json, rfl, rfl, rfl⟩

theorem nonempty_eq_some_iff {α : Type} {list other : List α} :
    nonempty list = some other ↔ list ≠ [] ∧ list = other := by
  cases list <;> simp [nonempty]

theorem written_title_iff {node : Node} {list : List Node} :
    Slot.title.written node = some list ↔
      ∃ info, node.kind = .headline info list ∧ list ≠ [] := by
  rw [Slot.written]
  split
  · next info title hkind =>
      rw [nonempty_eq_some_iff, hkind]
      constructor
      · rintro ⟨hne, rfl⟩
        exact ⟨info, rfl, hne⟩
      · rintro ⟨_, heq, hne⟩
        cases heq
        exact ⟨hne, rfl⟩
  · next hkind =>
      constructor
      · intro h
        cases h
      · rintro ⟨info, hheadline, _⟩
        exact absurd hheadline (hkind info list)

theorem written_tag_iff {node : Node} {list : List Node} :
    Slot.tag.written node = some list ↔ ∃ checkbox, node.kind = .listItem checkbox (some list) := by
  rw [Slot.written]
  split
  · next checkbox tag hkind =>
      rw [hkind]
      constructor
      · rintro rfl
        exact ⟨checkbox, rfl⟩
      · rintro ⟨_, heq⟩
        cases heq
        rfl
  · next hkind =>
      constructor
      · intro h
        cases h
      · rintro ⟨checkbox, hitem⟩
        exact absurd hitem (hkind checkbox (some list))

/-- A list that is written stands in one of the fields. -/
theorem Slot.field_mem {slot : Slot} {node : Node} {list : List Node}
    (h : slot.written node = some list) :
    (slot.key, some (.array (list.map toJson))) ∈ node.fields := by
  have hfield : slot.field node = (slot.key, some (.array (list.map toJson))) := by
    rw [Slot.field, h]
    rfl
  rw [← hfield, fields, List.mem_cons, List.mem_append]
  right
  cases slot with
  | children | caption => exact .inr (by simp [sharedFields])
  | title =>
      obtain ⟨info, hkind, _⟩ := written_title_iff.mp h
      exact .inl (by simp [ownFields, hkind])
  | tag =>
      obtain ⟨checkbox, hkind⟩ := written_tag_iff.mp h
      exact .inl (by simp [ownFields, hkind])

theorem Slot.mem_members {slot : Slot} {node member : Node} {list : List Node}
    (h : slot.written node = some list) (hm : member ∈ list) : member ∈ node.members := by
  cases slot with
  | children => exact mem_members_of_children ((nonempty_eq_some_iff.mp h).2 ▸ hm)
  | caption => exact mem_members_of_caption h hm
  | title =>
      obtain ⟨info, hkind, _⟩ := written_title_iff.mp h
      exact mem_members_of_title hkind hm
  | tag =>
      obtain ⟨checkbox, hkind⟩ := written_tag_iff.mp h
      exact mem_members_of_tag hkind hm

/-- All nodes that a node owns are written. -/
theorem Slot.exists_written {node member : Node} (h : member ∈ node.members) :
    ∃ slot list, written slot node = some list ∧ member ∈ list := by
  obtain ⟨list, hlist, hm⟩ := mem_members_iff.mp h
  have hne : list ≠ [] := List.ne_nil_of_mem hm
  simp only [lists, Parts.lists, parts, List.mem_append, Option.mem_toList,
    List.mem_singleton] at hlist
  obtain (hcaption | hkind) | rfl := hlist
  · exact ⟨.caption, list, hcaption, hm⟩
  · cases hnode : node.kind with
    | headline info title =>
        simp only [hnode, Kind.lists, List.mem_singleton] at hkind
        subst hkind
        exact ⟨.title, list, written_title_iff.mpr ⟨info, hnode, hne⟩, hm⟩
    | listItem checkbox tag =>
        cases tag with
        | none => simp [hnode, Kind.lists] at hkind
        | some tag =>
            simp only [hnode, Kind.lists, List.mem_singleton] at hkind
            subst hkind
            exact ⟨.tag, list, written_tag_iff.mpr ⟨checkbox, hnode⟩, hm⟩
    | _ => simp [hnode, Kind.lists] at hkind
  · exact ⟨.children, node.children, nonempty_eq_some_iff.mpr ⟨hne, rfl⟩, hm⟩

/-- A value that may stand in a field of a node. -/
inductive FieldValue (node : Node) : Json → Prop where
  | string (value : String) : FieldValue node (.string value)
  | number {n : Nat} (fits : n ≤ Numeral.wordLimit) : FieldValue node (.number n)
  | flag : FieldValue node (.bool true)
  | nodes {slot : Slot} {list : List Node} (written : slot.written node = some list) :
      FieldValue node (.array (list.map toJson))
  | tags {info : HeadlineInfo} {title : List Node} (kind : node.kind = .headline info title)
      (given : info.tags ≠ []) : FieldValue node (.array (info.tags.map .string))

section Values

variable {node : Node} {json : Json}

theorem fieldValue_string {value : Option String} (h : json ∈ value.map .string) :
    node.FieldValue json := by
  obtain ⟨part, _, rfl⟩ := Option.map_eq_some_iff.mp h
  exact .string part

theorem fieldValue_name {value : String} (h : json ∈ some (Json.string value)) :
    node.FieldValue json :=
  fieldValue_string (show json ∈ (some value).map Json.string from h)

theorem fieldValue_flag {value : Bool}
    (h : json ∈ (if value then some (.bool true) else none : Option Json)) :
    node.FieldValue json := by
  cases value <;> cases h
  exact .flag

theorem fieldValue_slot {slot : Slot} (h : json ∈ (slot.field node).2) : node.FieldValue json := by
  obtain ⟨list, hlist, rfl⟩ := Option.map_eq_some_iff.mp h
  exact .nodes hlist

theorem fieldValue_headline {info : HeadlineInfo} {title : List Node}
    (hkind : node.kind = .headline info title) {field : String × Option Json}
    (h : field ∈ node.ownFields) (hj : json ∈ field.2) : node.FieldValue json := by
  simp only [ownFields, hkind, List.mem_cons, List.not_mem_nil, or_false] at h
  obtain rfl | rfl | rfl | rfl | rfl | rfl | rfl | rfl := h
  · cases hj
    exact .number (Nat.le_trans (Nat.le_of_lt info.level.toNat_lt) (by decide))
  · exact fieldValue_string hj
  · obtain ⟨c, _, rfl⟩ := Option.map_eq_some_iff.mp hj
    exact .string _
  · obtain ⟨tags, htags, rfl⟩ := Option.map_eq_some_iff.mp hj
    obtain ⟨hne, rfl⟩ := nonempty_eq_some_iff.mp htags
    exact .tags hkind hne
  · exact fieldValue_slot hj
  · exact fieldValue_string hj
  · exact fieldValue_string hj
  · exact fieldValue_flag hj

theorem fieldValue_own {field : String × Option Json} (h : field ∈ node.ownFields)
    (hj : json ∈ field.2) : node.FieldValue json := by
  cases hkind : node.kind with
  | headline info title => exact fieldValue_headline hkind h hj
  | listItem checkbox tag =>
      simp only [ownFields, hkind, List.mem_cons, List.not_mem_nil, or_false] at h
      obtain rfl | rfl := h
      · simp only [Option.mem_def, Option.ite_none_left_eq_some, Option.some.injEq] at hj
        exact hj.2 ▸ .string _
      · exact fieldValue_slot hj
  | table type value =>
      simp only [ownFields, hkind, List.mem_cons, List.not_mem_nil, or_false] at h
      obtain rfl | rfl := h
      · exact fieldValue_name hj
      · exact fieldValue_string hj
  | link type path =>
      simp only [ownFields, hkind, List.mem_cons, List.not_mem_nil, or_false] at h
      obtain rfl | rfl := h
      · exact fieldValue_name hj
      · exact fieldValue_name hj
  | sourceBlock language value numberLines =>
      simp only [ownFields, hkind, List.mem_cons, List.not_mem_nil, or_false] at h
      obtain rfl | rfl | rfl := h
      · exact fieldValue_string hj
      · exact fieldValue_name hj
      · exact fieldValue_flag hj
  | footnoteReference label =>
      simp only [ownFields, hkind, List.mem_singleton] at h
      subst h
      exact fieldValue_string hj
  | plainList type | tableRow type | footnoteDefinition value | code value | verbatim value
  | exampleBlock value | fixedWidth value | plainText value =>
      simp only [ownFields, hkind, List.mem_singleton] at h
      subst h
      exact fieldValue_name hj
  | _ =>
      simp only [ownFields, hkind] at h
      cases h

theorem fieldValue_of_mem {field : String × Option Json} (h : field ∈ node.fields)
    (hj : json ∈ field.2) : node.FieldValue json := by
  simp only [fields, sharedFields, List.mem_cons, List.mem_append, List.not_mem_nil,
    or_false] at h
  obtain rfl | hown | rfl | rfl | rfl | rfl := h
  · exact fieldValue_name hj
  · exact fieldValue_own hown hj
  · exact fieldValue_slot hj
  · obtain ⟨n, _, rfl⟩ := Option.map_eq_some_iff.mp hj
    exact .number (Nat.le_trans (Nat.le_of_lt n.toNat_lt) (by decide))
  · exact fieldValue_string hj
  · exact fieldValue_slot hj

end Values

theorem nodup_fields (node : Node) : (node.fields.map Prod.fst).Nodup := by
  obtain ⟨kind, children, postBlank, name, caption, id⟩ := node
  cases kind <;> simp [fields, ownFields, sharedFields, Slot.field, Slot.key]

end Node

end OutlineWiki
