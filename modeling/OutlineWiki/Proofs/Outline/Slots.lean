import OutlineWiki.Proofs.Outline.Decode

/-!
The lists of nodes in an object.

An object may hold lists of nodes under four keys. Two of them are read where they stand
and two only when the kind of the node is known. All four are read in the same way: the
node holds what reading each item gives, and there is a node as soon as every item is one.
-/

namespace OutlineWiki

open Scan (Steady)

namespace Fields

variable {α β : Type} {before after : List (Option String × Scan)} {own key : String}
  {scan other : Scan} {read : Scan → Decoded β} {finish : Option β → Decoded α}

theorem valuesOf_replace_of_ne (scan other : Scan) (h : own ≠ key) :
    valuesOf own (before ++ (some key, scan) :: after) =
      valuesOf own (before ++ (some key, other) :: after) := by
  simp [valuesOf, Ne.symm h]

theorem keyed_replace (scan other : Scan) :
    Keyed (before ++ (some key, scan) :: after) ↔ Keyed (before ++ (some key, other) :: after) := by
  simp only [Keyed, List.forall_mem_append, List.forall_mem_cons, Option.isSome_some, true_and]

/-- The value of a field is the only one under its key, so nothing is left of the old one. -/
theorem FieldGives.replace {value result : α}
    (h : FieldGives key read finish (before ++ (some key, scan) :: after) value) :
    FieldGives key read finish (before ++ (some key, other) :: after) result ↔
      ∃ part, read other = .ok part ∧ finish (some part) = .ok result := by
  have hvalues : ∀ part, valuesOf key (before ++ (some key, part) :: after) =
      valuesOf key before ++ part :: valuesOf key after := by
    intro part
    simp [valuesOf]
  have hnone : valuesOf key before = [] ∧ valuesOf key after = [] := by
    rw [FieldGives] at h
    rw [hvalues] at h
    obtain ⟨hnil, _⟩ | ⟨first, _, hone, _⟩ := h
    · simp at hnil
    · have hlength := congrArg List.length hone
      rw [List.length_append, List.length_cons, List.length_singleton] at hlength
      exact ⟨List.length_eq_zero_iff.mp (by omega), List.length_eq_zero_iff.mp (by omega)⟩
  rw [FieldGives]
  rw [hvalues, hnone.1, hnone.2]
  simp

theorem FieldGives.unique {entries : List (Option String × Scan)} {value result : α}
    (h : FieldGives own read finish entries value)
    (h' : FieldGives own read finish entries result) : value = result := by
  obtain ⟨hnil, hvalue⟩ | ⟨scan, part, hone, hpart, hvalue⟩ := h
  · obtain ⟨_, hresult⟩ | ⟨_, _, hone', _⟩ := h'
    · exact Except.ok.inj (hvalue.symm.trans hresult)
    · rw [hnil] at hone'
      cases hone'
  · obtain ⟨hnil, _⟩ | ⟨scan', part', hone', hpart', hresult⟩ := h'
    · rw [hnil] at hone
      cases hone
    · cases hone.symm.trans hone'
      cases hpart.symm.trans hpart'
      exact Except.ok.inj (hvalue.symm.trans hresult)

/-- Another field gives what it gave. -/
theorem FieldGives.replace_of_ne {value result : α}
    (h : FieldGives own read finish (before ++ (some key, scan) :: after) value)
    (hne : own ≠ key) :
    FieldGives own read finish (before ++ (some key, other) :: after) result ↔ result = value := by
  have hsame : FieldGives own read finish (before ++ (some key, other) :: after) value := by
    unfold FieldGives at h ⊢
    rwa [valuesOf_replace_of_ne other scan hne]
  constructor
  · exact fun hresult => hresult.unique hsame
  · rintro rfl
    exact hsame

/-- A field gives what its value reads as, wherever the value stands. -/
theorem FieldGives.read_of_mem {entries : List (Option String × Scan)} {value : α}
    (h : FieldGives own read finish entries value) (hm : (some own, scan) ∈ entries) :
    ∃ part, read scan = .ok part := by
  have hvalue : scan ∈ valuesOf own entries := List.mem_filterMap.mpr ⟨_, hm, by simp⟩
  obtain ⟨hnil, _⟩ | ⟨first, part, hone, hpart, _⟩ := h
  · rw [hnil] at hvalue
    cases hvalue
  · rw [hone, List.mem_singleton] at hvalue
    exact ⟨part, hvalue ▸ hpart⟩

/-- The value of a field that is not known may be replaced by any other. -/
theorem read_replace_of_not_mem (scan other : Scan) {fields : Fields α} (hl : fields.Lawful)
    (h : key ∉ fields.keys) (closed : Bool) :
    fields.read anything (before ++ (some key, scan) :: after) closed =
      fields.read anything (before ++ (some key, other) :: after) closed := by
  have henter : ∀ value slots, fields.enter anything slots (some key, value) = .ok slots := by
    intro value slots
    simp only [enter, (hl key value slots).mpr h, anything, if_true]
  simp only [read, List.foldlM_append, List.foldlM_cons, henter]

theorem others_replace_of_mem (scan other : Scan) {fields : Fields α} (h : key ∈ fields.keys) :
    fields.others (before ++ (some key, scan) :: after) =
      fields.others (before ++ (some key, other) :: after) := by
  have hknown : fields.keys.any (fun own => some own == some key) = true :=
    List.any_eq_true.mpr ⟨key, h, by simp⟩
  simp only [Fields.others, List.filter_append, List.filter_cons, hknown, Bool.not_true,
    Bool.false_eq_true, if_false]

theorem others_replace_of_not_mem {fields : Fields α} (h : key ∉ fields.keys) :
    fields.others (before ++ (some key, scan) :: after) =
      fields.others before ++ (some key, scan) :: fields.others after := by
  have hunknown : fields.keys.any (fun own => some own == some key) = false := by
    rw [List.any_eq_false]
    intro own hown heq
    rw [beq_iff_eq, Option.some.injEq] at heq
    exact h (heq ▸ hown)
  simp only [Fields.others, List.filter_append, List.filter_cons, hunknown, Bool.not_false, if_true]

theorem passes_replace_of_mem {fields : Fields α} {accepts : Scan → Bool} (h : key ∈ fields.keys) :
    (∀ entry ∈ before ++ (some key, scan) :: after, fields.Passes accepts entry) ↔
      ∀ entry ∈ before ++ (some key, other) :: after, fields.Passes accepts entry := by
  have hpass : ∀ value, fields.Passes accepts (some key, value) := by
    intro value own hown hnot
    cases hown
    exact absurd h hnot
  simp only [List.forall_mem_append, List.forall_mem_cons, hpass, true_and]

theorem passes_replace {fields : Fields α} {accepts : Scan → Bool}
    (h : ∀ entry ∈ before ++ (some key, scan) :: after, fields.Passes accepts entry)
    (ha : accepts other = true) :
    ∀ entry ∈ before ++ (some key, other) :: after, fields.Passes accepts entry := by
  simp only [List.forall_mem_append, List.forall_mem_cons] at h ⊢
  exact ⟨h.1, fun _ _ _ => ha, h.2.2⟩

/-- Everything that the fields build has a property, whatever stands in their slots. -/
def Builds (fields : Fields α) (p : α → Prop) : Prop :=
  ∀ slots value, fields.build slots = .ok value → p value

theorem builds_constant {p : α → Prop} {value : α} (h : p value) : (constant value).Builds p := by
  intro _ result hresult
  cases hresult
  exact h

theorem builds_seq {p : α → Prop} {first : Fields (β → α)} {second : Fields β}
    (h : first.Builds fun make => ∀ part, p (make part)) : (first <*> second).Builds p := by
  rintro ⟨start, _⟩ value hvalue
  obtain ⟨make, hmake, hrest⟩ := Decoded.bind_eq_ok.mp hvalue
  obtain ⟨part, _, hresult⟩ := Decoded.bind_eq_ok.mp hrest
  cases hresult
  exact h start make hmake part

theorem builds_map {p : α → Prop} {f : β → α} {fields : Fields β} (h : ∀ part, p (f part)) :
    (f <$> fields).Builds p :=
  builds_seq (builds_constant h)

theorem Builds.of_read {fields : Fields α} {p : α → Prop} (h : fields.Builds p)
    {accepts : Scan → Bool} {entries : List (Option String × Scan)} {closed : Bool} {value : α}
    (hv : fields.read accepts entries closed = .ok value) : p value := by
  obtain ⟨slots, _, _, hbuild⟩ := read_eq_ok_iff.mp hv
  exact h slots value hbuild

end Fields

namespace Node

open Fields

variable {nodes : Scan → Decoded (List Node)} {entries : List (Option String × Scan)}
  {closed : Bool}

theorem read_commonFields_iff {own : CommonFields} :
    (commonFields nodes).read anything entries closed = .ok own ↔
      closed = true ∧ Keyed entries ∧
        FieldGives "children" nodes (fun value => .ok (value.getD [])) entries own.children ∧
        FieldGives "post_blank" (Scan.asOption Scan.asWord) (fun value => .ok (value.getD none))
          entries own.postBlank ∧
        FieldGives "name" (Scan.asOption Scan.asString) (fun value => .ok (value.getD none))
          entries own.name ∧
        FieldGives "caption" (Scan.asOption nodes) (fun value => .ok (value.getD none))
          entries own.caption := by
  have hchildren : (Fields.optional "children" [] nodes).Lawful := lawful_field _ _ _
  have hblank : (Fields.nullable "post_blank" Scan.asWord).Lawful := lawful_field _ _ _
  have hname : (Fields.nullable "name" Scan.asString).Lawful := lawful_field _ _ _
  have hcaption : (Fields.nullable "caption" nodes).Lawful := lawful_field _ _ _
  have hone := lawful_map CommonFields.mk hchildren
  have htwo := lawful_seq hone hblank
  rw [commonFields, read_seq_iff (lawful_seq htwo hname) hcaption rfl]
  simp only [read_seq_iff htwo hname rfl, read_seq_iff hone hblank rfl,
    read_map_iff CommonFields.mk hchildren]
  simp only [Fields.optional, Fields.nullable, read_field_iff]
  obtain ⟨children, postBlank, name, caption⟩ := own
  constructor
  · rintro ⟨_, _, ⟨_, _, ⟨_, _, ⟨_, ⟨hclosed, hkeyed, hc⟩, rfl⟩, ⟨_, _, hb⟩, rfl⟩, ⟨_, _, hn⟩, rfl⟩,
      ⟨_, _, hp⟩, heq⟩
    cases heq
    exact ⟨hclosed, hkeyed, hc, hb, hn, hp⟩
  · rintro ⟨hclosed, hkeyed, hc, hb, hn, hp⟩
    exact ⟨_, _, ⟨_, _, ⟨_, _, ⟨_, ⟨hclosed, hkeyed, hc⟩, rfl⟩, ⟨hclosed, hkeyed, hb⟩, rfl⟩,
      ⟨hclosed, hkeyed, hn⟩, rfl⟩, ⟨hclosed, hkeyed, hp⟩, rfl⟩

theorem read_headlineFields_iff {kind : Kind Node} :
    (headlineFields nodes).read anything entries closed = .ok kind ↔
      closed = true ∧ Keyed entries ∧ ∃ info title,
        FieldGives "level" Scan.asByte (fun value =>
          match value with
          | some level => .ok level
          | none => .error (.missingField "level")) entries info.level ∧
        FieldGives "todo" (Scan.asOption Scan.asString) (fun value => .ok (value.getD none))
          entries info.todo ∧
        FieldGives "priority" (Scan.asOption Scan.asChar) (fun value => .ok (value.getD none))
          entries info.priority ∧
        FieldGives "tags" (Scan.asList Scan.asString) (fun value => .ok (value.getD []))
          entries info.tags ∧
        FieldGives "title" nodes (fun value => .ok (value.getD [])) entries title ∧
        FieldGives "custom_id" (Scan.asOption Scan.asString) (fun value => .ok (value.getD none))
          entries info.customId ∧
        FieldGives "id" (Scan.asOption Scan.asString) (fun value => .ok (value.getD none))
          entries info.id ∧
        FieldGives "footnote_section" Scan.asBool (fun value => .ok (value.getD false))
          entries info.footnoteSection ∧
        kind = .headline info title := by
  have hlevel : (Fields.required "level" Scan.asByte).Lawful := lawful_field _ _ _
  have hstring : ∀ key, (Fields.nullable key Scan.asString).Lawful := fun _ => lawful_field _ _ _
  have hpriority : (Fields.nullable "priority" Scan.asChar).Lawful := lawful_field _ _ _
  have htags : (Fields.optional "tags" [] (Scan.asList Scan.asString)).Lawful := lawful_field _ _ _
  have htitle : (Fields.optional "title" [] nodes).Lawful := lawful_field _ _ _
  have hsection : (Fields.optional "footnote_section" false Scan.asBool).Lawful :=
    lawful_field _ _ _
  have hone := fun make : UInt8 → Option String → Option Char → List String → List Node →
    Option String → Option String → Bool → Kind Node => lawful_map make hlevel
  have htwo := fun make => lawful_seq (hone make) (hstring "todo")
  have hthree := fun make => lawful_seq (htwo make) hpriority
  have hfour := fun make => lawful_seq (hthree make) htags
  have hfive := fun make => lawful_seq (hfour make) htitle
  have hsix := fun make => lawful_seq (hfive make) (hstring "custom_id")
  have hseven := fun make => lawful_seq (hsix make) (hstring "id")
  rw [headlineFields, read_seq_iff (hseven _) hsection rfl]
  simp only [read_seq_iff (hsix _) (hstring "id") rfl,
    read_seq_iff (hfive _) (hstring "custom_id") rfl, read_seq_iff (hfour _) htitle rfl,
    read_seq_iff (hthree _) htags rfl, read_seq_iff (htwo _) hpriority rfl,
    read_seq_iff (hone _) (hstring "todo") rfl, read_map_iff _ hlevel]
  simp only [Fields.optional, Fields.nullable, Fields.required, read_field_iff]
  constructor
  · rintro ⟨_, _, ⟨_, _, ⟨_, _, ⟨_, _, ⟨_, _, ⟨_, _, ⟨_, _, ⟨_, ⟨hclosed, hkeyed, hlevel⟩, rfl⟩,
      ⟨_, _, htodo⟩, rfl⟩, ⟨_, _, hpriority⟩, rfl⟩, ⟨_, _, htags⟩, rfl⟩, ⟨_, _, htitle⟩, rfl⟩,
      ⟨_, _, hcustom⟩, rfl⟩, ⟨_, _, hid⟩, rfl⟩, ⟨_, _, hsection⟩, heq⟩
    exact ⟨hclosed, hkeyed, ⟨_, _, _, _, _, _, _⟩, _, hlevel, htodo, hpriority, htags, htitle,
      hcustom, hid, hsection, heq.symm⟩
  · rintro ⟨hclosed, hkeyed, ⟨_, _, _, _, _, _, _⟩, _, hlevel, htodo, hpriority, htags, htitle,
      hcustom, hid, hsection, rfl⟩
    exact ⟨_, _, ⟨_, _, ⟨_, _, ⟨_, _, ⟨_, _, ⟨_, _, ⟨_, _, ⟨_, ⟨hclosed, hkeyed, hlevel⟩, rfl⟩,
      ⟨hclosed, hkeyed, htodo⟩, rfl⟩, ⟨hclosed, hkeyed, hpriority⟩, rfl⟩,
      ⟨hclosed, hkeyed, htags⟩, rfl⟩, ⟨hclosed, hkeyed, htitle⟩, rfl⟩,
      ⟨hclosed, hkeyed, hcustom⟩, rfl⟩, ⟨hclosed, hkeyed, hid⟩, rfl⟩,
      ⟨hclosed, hkeyed, hsection⟩, rfl⟩

theorem read_listItemFields_iff {kind : Kind Node} :
    (kindFields nodes "list_item").read anything entries closed = .ok kind ↔
      closed = true ∧ Keyed entries ∧ ∃ checkbox tag,
        FieldGives "checkbox" (Scan.asVariant checkboxes) (fun value => .ok (value.getD .none))
          entries checkbox ∧
        FieldGives "tag" (Scan.asOption nodes) (fun value => .ok (value.getD none)) entries tag ∧
        kind = .listItem checkbox tag := by
  have hbox : (Fields.optional "checkbox" Checkbox.none (Scan.asVariant checkboxes)).Lawful :=
    lawful_field _ _ _
  have htag : (Fields.nullable "tag" nodes).Lawful := lawful_field _ _ _
  have hfields : kindFields nodes "list_item" =
      (Kind.listItem <$> .optional "checkbox" .none (Scan.asVariant checkboxes)
        <*> .nullable "tag" nodes) := rfl
  rw [hfields, read_seq_iff (lawful_map _ hbox) htag rfl]
  simp only [read_map_iff _ hbox]
  simp only [Fields.optional, Fields.nullable, read_field_iff]
  constructor
  · rintro ⟨_, _, ⟨_, ⟨hclosed, hkeyed, hbox⟩, rfl⟩, ⟨_, _, htag⟩, rfl⟩
    exact ⟨hclosed, hkeyed, _, _, hbox, htag, rfl⟩
  · rintro ⟨hclosed, hkeyed, _, _, hbox, htag, rfl⟩
    exact ⟨_, _, ⟨_, ⟨hclosed, hkeyed, hbox⟩, rfl⟩, ⟨hclosed, hkeyed, htag⟩, rfl⟩

/-- The kind that is read under a name has that name, or the name is of no kind. -/
theorem builds_kindFields (name : String) :
    (kindFields nodes name).Builds fun kind => kind.name = name ∨ kind = .unknown := by
  unfold kindFields
  split
  case h_3 =>
    exact builds_seq (builds_seq (builds_seq (builds_seq (builds_seq (builds_seq (builds_seq
      (builds_map fun _ _ _ _ _ _ _ _ => .inl rfl)))))))
  case h_6 | h_7 | h_10 => exact builds_seq (builds_map fun _ _ => .inl rfl)
  case h_21 => exact builds_seq (builds_seq (builds_map fun _ _ _ => .inl rfl))
  case h_5 | h_8 | h_11 | h_12 | h_15 | h_16 | h_20 | h_22 | h_25 =>
    exact builds_map fun _ => .inl rfl
  case h_26 => exact builds_constant (.inr rfl)
  all_goals exact builds_constant (.inl rfl)

section

variable {before after : List (Option String × Scan)} {scan other : Scan} {depth : Nat}

theorem read_commonFields_children {own result : CommonFields}
    (h : (commonFields nodes).read anything (before ++ (some "children", scan) :: after) closed =
      .ok own) :
    (commonFields nodes).read anything (before ++ (some "children", other) :: after) closed =
        .ok result ↔
      ∃ list, nodes other = .ok list ∧ result = { own with children := list } := by
  obtain ⟨hclosed, hkeyed, hchildren, hblank, hname, hcaption⟩ := read_commonFields_iff.mp h
  rw [read_commonFields_iff, hchildren.replace, hblank.replace_of_ne (by decide),
    hname.replace_of_ne (by decide), hcaption.replace_of_ne (by decide)]
  obtain ⟨children, postBlank, name, caption⟩ := result
  constructor
  · rintro ⟨_, _, ⟨list, hlist, hlast⟩, rfl, rfl, rfl⟩
    cases hlast
    exact ⟨_, hlist, rfl⟩
  · rintro ⟨list, hlist, heq⟩
    cases heq
    exact ⟨hclosed, (keyed_replace _ _).mp hkeyed, ⟨_, hlist, rfl⟩, rfl, rfl, rfl⟩

theorem read_commonFields_caption {own result : CommonFields}
    (h : (commonFields nodes).read anything (before ++ (some "caption", scan) :: after) closed =
      .ok own) :
    (commonFields nodes).read anything (before ++ (some "caption", other) :: after) closed =
        .ok result ↔
      ∃ list, Scan.asOption nodes other = .ok list ∧ result = { own with caption := list } := by
  obtain ⟨hclosed, hkeyed, hchildren, hblank, hname, hcaption⟩ := read_commonFields_iff.mp h
  rw [read_commonFields_iff, hcaption.replace, hblank.replace_of_ne (by decide),
    hname.replace_of_ne (by decide), hchildren.replace_of_ne (by decide)]
  obtain ⟨children, postBlank, name, caption⟩ := result
  constructor
  · rintro ⟨_, _, rfl, rfl, rfl, list, hlist, hlast⟩
    cases hlast
    exact ⟨_, hlist, rfl⟩
  · rintro ⟨list, hlist, heq⟩
    cases heq
    exact ⟨hclosed, (keyed_replace _ _).mp hkeyed, rfl, rfl, rfl, _, hlist, rfl⟩

theorem read_headlineFields_title {info : HeadlineInfo} {title : List Node} {kind : Kind Node}
    (h : (kindFields nodes "headline").read anything (before ++ (some "title", scan) :: after)
      closed = .ok (.headline info title)) :
    (kindFields nodes "headline").read anything (before ++ (some "title", other) :: after) closed =
        .ok kind ↔
      ∃ list, nodes other = .ok list ∧ kind = .headline info list := by
  obtain ⟨hclosed, hkeyed, _, _, hlevel, htodo, hpriority, htags, htitle, hcustom, hid, hsection,
    heq⟩ := read_headlineFields_iff.mp h
  cases heq
  apply read_headlineFields_iff.trans
  rw [← keyed_replace scan]
  simp only [htitle.replace, hlevel.replace_of_ne (by decide),
    htodo.replace_of_ne (by decide), hpriority.replace_of_ne (by decide),
    htags.replace_of_ne (by decide), hcustom.replace_of_ne (by decide),
    hid.replace_of_ne (by decide), hsection.replace_of_ne (by decide)]
  constructor
  · rintro ⟨_, _, ⟨_, _, _, _, _, _, _⟩, _, rfl, rfl, rfl, rfl, ⟨list, hlist, hlast⟩, rfl, rfl,
      rfl, rfl⟩
    cases hlast
    exact ⟨list, hlist, rfl⟩
  · rintro ⟨list, hlist, rfl⟩
    exact ⟨hclosed, hkeyed, info, list, rfl, rfl, rfl, rfl, ⟨list, hlist, rfl⟩, rfl, rfl, rfl, rfl⟩

theorem read_listItemFields_tag {checkbox : Checkbox} {tag : Option (List Node)}
    {kind : Kind Node}
    (h : (kindFields nodes "list_item").read anything (before ++ (some "tag", scan) :: after)
      closed = .ok (.listItem checkbox tag)) :
    (kindFields nodes "list_item").read anything (before ++ (some "tag", other) :: after) closed =
        .ok kind ↔
      ∃ list, Scan.asOption nodes other = .ok list ∧ kind = .listItem checkbox list := by
  obtain ⟨hclosed, hkeyed, _, _, hbox, htag, heq⟩ := read_listItemFields_iff.mp h
  cases heq
  rw [read_listItemFields_iff, ← keyed_replace scan]
  simp only [htag.replace, hbox.replace_of_ne (by decide)]
  constructor
  · rintro ⟨_, _, _, _, rfl, ⟨list, hlist, hlast⟩, rfl⟩
    cases hlast
    exact ⟨list, hlist, rfl⟩
  · rintro ⟨list, hlist, rfl⟩
    exact ⟨hclosed, hkeyed, checkbox, list, rfl, ⟨list, hlist, rfl⟩, rfl⟩

end

end Node
end OutlineWiki
