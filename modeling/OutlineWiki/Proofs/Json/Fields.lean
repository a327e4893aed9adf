import Mathlib.Data.List.Permutation
import OutlineWiki.Json.Fields

/-!
What a reader of known fields makes of an object.

A field only depends on the values that stand under its key, and there is at most one of
them when reading succeeds. So reading several fields is reading each of them alone, and
the order of the entries does not matter.
-/

namespace OutlineWiki

theorem Decoded.bind_eq_ok {α β : Type} {first : Decoded α} {next : α → Decoded β} {value : β} :
    (first >>= next) = .ok value ↔ ∃ result, first = .ok result ∧ next result = .ok value := by
  cases first with
  | error fault => simp [bind, Except.bind]
  | ok result => simp [bind, Except.bind]

theorem Decoded.map_eq_ok {α β : Type} {first : Decoded α} {f : α → β} {value : β} :
    first.map f = .ok value ↔ ∃ result, first = .ok result ∧ f result = value := by
  cases first <;> simp [Except.map]

theorem Scan.ensureClosed_eq_ok {closed : Bool} {done : Unit} :
    ensureClosed closed = .ok done ↔ closed = true := by
  cases closed <;> simp [ensureClosed]

/-- The values that stand under a key, in order. -/
def valuesOf (key : String) (entries : List (Option String × Scan)) : List Scan :=
  entries.filterMap fun entry => if entry.1 = some key then some entry.2 else none

/-- All keys of the entries are texts. -/
def Keyed (entries : List (Option String × Scan)) : Prop :=
  ∀ entry ∈ entries, entry.1.isSome = true

namespace Fields

variable {α β : Type} {accepts : Scan → Bool} {entries : List (Option String × Scan)}
  {closed : Bool}

/-- The values of other fields may be anything. -/
def anything (_ : Scan) : Bool :=
  true

/-- The reader takes the keys that it names and no others, whatever stands in its slots. -/
def Lawful (fields : Fields α) : Prop :=
  ∀ key scan slots, fields.put key scan slots = none ↔ key ∉ fields.keys

/-- The value of the entry is accepted, if its key is not known. -/
def Passes (fields : Fields α) (accepts : Scan → Bool) (entry : Option String × Scan) : Prop :=
  ∀ key, entry.1 = some key → key ∉ fields.keys → accepts entry.2 = true

theorem read_eq_ok_iff {fields : Fields α} {value : α} :
    fields.read accepts entries closed = .ok value ↔
      ∃ slots, entries.foldlM (fields.enter accepts) fields.empty = .ok slots ∧
        closed = true ∧ fields.build slots = .ok value := by
  simp only [read, Decoded.bind_eq_ok, Scan.ensureClosed_eq_ok]
  constructor
  · rintro ⟨slots, hslots, _, hclosed, hbuild⟩
    exact ⟨slots, hslots, hclosed, hbuild⟩
  · rintro ⟨slots, hslots, hclosed, hbuild⟩
    exact ⟨slots, hslots, (), hclosed, hbuild⟩

theorem enter_accepts_iff {fields : Fields α} (hl : fields.Lawful)
    {slots later : fields.Slots} {entry : Option String × Scan} :
    fields.enter accepts slots entry = .ok later ↔
      fields.enter anything slots entry = .ok later ∧ fields.Passes accepts entry := by
  obtain ⟨key, value⟩ := entry
  cases key with
  | none => simp [enter]
  | some key =>
      simp only [enter, Passes, Option.some.injEq, anything, if_true]
      cases hput : fields.put key value slots with
      | none =>
          have hkey := (hl key value slots).mp hput
          cases haccepts : accepts value <;> simp_all
      | some result =>
          have hkey : key ∈ fields.keys := by
            by_contra hnot
            rw [(hl key value slots).mpr hnot] at hput
            cases hput
          refine (and_iff_left ?_).symm
          rintro _ rfl hnot
          exact absurd hkey hnot

/-- Reading succeeds when it does with any other values, and all of them are accepted. -/
theorem read_accepts_iff {fields : Fields α} (hl : fields.Lawful) {value : α} :
    fields.read accepts entries closed = .ok value ↔
      fields.read anything entries closed = .ok value ∧
        ∀ entry ∈ entries, fields.Passes accepts entry := by
  have hfold : ∀ (slots later : fields.Slots),
      entries.foldlM (fields.enter accepts) slots = .ok later ↔
        entries.foldlM (fields.enter anything) slots = .ok later ∧
          ∀ entry ∈ entries, fields.Passes accepts entry := by
    induction entries with
    | nil => simp
    | cons entry entries ih =>
        intro slots later
        simp only [List.foldlM_cons, Decoded.bind_eq_ok, ih, List.forall_mem_cons]
        constructor
        · rintro ⟨between, henter, hrest, hall⟩
          obtain ⟨hfirst, hpass⟩ := (enter_accepts_iff hl).mp henter
          exact ⟨⟨between, hfirst, hrest⟩, hpass, hall⟩
        · rintro ⟨⟨between, hfirst, hrest⟩, hpass, hall⟩
          exact ⟨between, (enter_accepts_iff hl).mpr ⟨hfirst, hpass⟩, hrest, hall⟩
  simp only [read_eq_ok_iff, hfold]
  constructor
  · rintro ⟨slots, ⟨hslots, hall⟩, hrest⟩
    exact ⟨⟨slots, hslots, hrest⟩, hall⟩
  · rintro ⟨⟨slots, hslots, hrest⟩, hall⟩
    exact ⟨slots, ⟨hslots, hall⟩, hrest⟩

theorem lawful_constant (value : α) : (constant value).Lawful := by
  intro key scan slots
  simp [constant]

theorem lawful_field (key : String) (read : Scan → Decoded β) (finish : Option β → Decoded α) :
    (field key read finish).Lawful := by
  intro own scan slot
  simp only [field, List.mem_singleton]
  by_cases h : own = key
  · cases slot <;> simp [h]
  · simp [h]

theorem lawful_both {first : Fields (α → β)} {second : Fields α} (hf : first.Lawful)
    (hs : second.Lawful) : (both first second).Lawful := by
  intro key scan slots
  have hfirst := hf key scan slots.1
  have hsecond := hs key scan slots.2
  simp only [both, List.mem_append, not_or]
  cases hput : first.put key scan slots.1 with
  | none =>
      rw [Option.map_eq_none_iff, hsecond]
      exact (and_iff_right (hfirst.mp hput)).symm
  | some result =>
      apply iff_of_false (by simp)
      intro h
      rw [hfirst.mpr h.1] at hput
      cases hput

theorem enter_both_iff {first : Fields (α → β)} {second : Fields α} (hf : first.Lawful)
    (hs : second.Lawful) (hd : first.keys.Disjoint second.keys)
    {slots later : (both first second).Slots} {entry : Option String × Scan} :
    (both first second).enter anything slots entry = .ok later ↔
      first.enter anything slots.1 entry = .ok later.1 ∧
        second.enter anything slots.2 entry = .ok later.2 := by
  obtain ⟨key, value⟩ := entry
  obtain ⟨start, other⟩ := slots
  obtain ⟨finish, last⟩ := later
  cases key with
  | none => simp [enter]
  | some key =>
      simp only [enter, both, anything, if_true]
      cases hfirst : first.put key value start with
      | some result =>
          have hkey : key ∈ first.keys := by
            by_contra hnot
            rw [(hf key value start).mpr hnot] at hfirst
            cases hfirst
          rw [(hs key value other).mpr fun h => hd hkey h]
          cases result <;> simp [Except.map]
      | none =>
          cases hsecond : second.put key value other with
          | none => simp
          | some result => cases result <;> simp [Except.map]

/-- Reading the fields of both readers is reading those of each. -/
theorem read_both_iff {first : Fields (α → β)} {second : Fields α} (hf : first.Lawful)
    (hs : second.Lawful) (hd : first.keys.Disjoint second.keys) {value : β} :
    (both first second).read anything entries closed = .ok value ↔
      ∃ make part, first.read anything entries closed = .ok make ∧
        second.read anything entries closed = .ok part ∧ make part = value := by
  have hfold : ∀ slots later : (both first second).Slots,
      entries.foldlM ((both first second).enter anything) slots = .ok later ↔
        entries.foldlM (first.enter anything) slots.1 = .ok later.1 ∧
          entries.foldlM (second.enter anything) slots.2 = .ok later.2 := by
    induction entries with
    | nil =>
        rintro ⟨start, other⟩ ⟨finish, last⟩
        change (Except.ok (start, other) : Decoded (first.Slots × second.Slots)) =
          .ok (finish, last) ↔ (Except.ok start : Decoded first.Slots) = .ok finish ∧
            (Except.ok other : Decoded second.Slots) = .ok last
        simp
    | cons entry entries ih =>
        intro slots later
        simp only [List.foldlM_cons, Decoded.bind_eq_ok, ih, enter_both_iff hf hs hd]
        constructor
        · rintro ⟨between, ⟨hfirst, hsecond⟩, hrest, hmore⟩
          exact ⟨⟨between.1, hfirst, hrest⟩, ⟨between.2, hsecond, hmore⟩⟩
        · rintro ⟨⟨start, hfirst, hrest⟩, ⟨other, hsecond, hmore⟩⟩
          exact ⟨(start, other), ⟨hfirst, hsecond⟩, hrest, hmore⟩
  simp only [read_eq_ok_iff, hfold]
  constructor
  · rintro ⟨slots, ⟨hfirst, hsecond⟩, hclosed, hbuild⟩
    simp only [both, Decoded.bind_eq_ok] at hbuild
    obtain ⟨make, hmake, part, hpart, hvalue⟩ := hbuild
    cases hvalue
    exact ⟨make, part, ⟨slots.1, hfirst, hclosed, hmake⟩, ⟨slots.2, hsecond, hclosed, hpart⟩, rfl⟩
  · rintro ⟨make, part, ⟨start, hfirst, hclosed, hmake⟩, ⟨other, hsecond, _, hpart⟩, rfl⟩
    refine ⟨(start, other), ⟨hfirst, hsecond⟩, hclosed, ?_⟩
    simp only [both, Decoded.bind_eq_ok]
    exact ⟨make, hmake, part, hpart, rfl⟩

theorem read_constant_iff {value result : α} :
    (constant value).read anything entries closed = .ok result ↔
      closed = true ∧ Keyed entries ∧ value = result := by
  have hfold : ∀ slots later : (constant value).Slots,
      entries.foldlM ((constant value).enter anything) slots = .ok later ↔ Keyed entries := by
    induction entries with
    | nil => exact fun _ _ => iff_of_true rfl fun entry h => (List.not_mem_nil h).elim
    | cons entry entries ih =>
        intro slots later
        obtain ⟨key, scan⟩ := entry
        rw [List.foldlM_cons, Decoded.bind_eq_ok, Keyed, List.forall_mem_cons]
        cases key with
        | none => simp [enter]
        | some key =>
            constructor
            · rintro ⟨between, _, hrest⟩
              exact ⟨rfl, (ih between later).mp hrest⟩
            · rintro ⟨_, hrest⟩
              exact ⟨slots, rfl, (ih slots later).mpr hrest⟩
  rw [read_eq_ok_iff]
  constructor
  · rintro ⟨slots, hslots, hclosed, hbuild⟩
    cases hbuild
    exact ⟨hclosed, (hfold _ _).mp hslots, rfl⟩
  · rintro ⟨hclosed, hkeyed, rfl⟩
    exact ⟨(), (hfold _ _).mpr hkeyed, hclosed, rfl⟩

section

variable {key : String} {read : Scan → Decoded β} {finish : Option β → Decoded α}

/-- What a field gives: it follows from the only value under its key, or from there being none. -/
def FieldGives (key : String) (read : Scan → Decoded β) (finish : Option β → Decoded α)
    (entries : List (Option String × Scan)) (value : α) : Prop :=
  (valuesOf key entries = [] ∧ finish none = .ok value) ∨
    ∃ scan part, valuesOf key entries = [scan] ∧ read scan = .ok part ∧
      finish (some part) = .ok value

theorem valuesOf_cons_self (scan : Scan) (entries : List (Option String × Scan)) :
    valuesOf key ((some key, scan) :: entries) = scan :: valuesOf key entries := by
  simp [valuesOf]

theorem valuesOf_cons_of_ne {own : Option String} (h : own ≠ some key) (scan : Scan)
    (entries : List (Option String × Scan)) :
    valuesOf key ((own, scan) :: entries) = valuesOf key entries := by
  simp [valuesOf, h]

/-- Reads one entry into the slot of a field. -/
def enterField (key : String) (read : Scan → Decoded β) (slot : Option β) :
    Option String × Scan → Decoded (Option β)
  | (none, _) => .error .malformed
  | (some own, scan) =>
    if own = key then
      match slot with
      | some _ => .error (.duplicateField key)
      | none => (read scan).map some
    else
      .ok slot

theorem enter_field (slot : Option β) (entry : Option String × Scan) :
    (field key read finish).enter anything slot entry = enterField key read slot entry := by
  obtain ⟨own, scan⟩ := entry
  cases own with
  | none => rfl
  | some own =>
      by_cases h : own = key
      · cases slot <;> simp [enter, field, enterField, h]
      · simp [enter, field, enterField, h, anything]

theorem enterField_of_ne {own : String} (h : own ≠ key) (scan : Scan) (slot : Option β) :
    enterField key read slot (some own, scan) = .ok slot := by
  simp [enterField, h]

theorem foldlM_field_some_iff {first : β} {later : Option β} :
    entries.foldlM (enterField key read) (some first) = .ok later ↔
      Keyed entries ∧ valuesOf key entries = [] ∧ later = some first := by
  induction entries with
  | nil =>
      change (Except.ok (some first) : Decoded (Option β)) = .ok later ↔ _
      rw [Except.ok.injEq]
      exact ⟨fun h => ⟨fun entry he => (List.not_mem_nil he).elim, rfl, h.symm⟩,
        fun h => h.2.2.symm⟩
  | cons entry entries ih =>
      obtain ⟨own, scan⟩ := entry
      rw [List.foldlM_cons, Decoded.bind_eq_ok, Keyed, List.forall_mem_cons]
      cases own with
      | none => simp [enterField]
      | some own =>
          by_cases hown : own = key
          · subst hown
            rw [valuesOf_cons_self]
            simp [enterField]
          · rw [enterField_of_ne hown, valuesOf_cons_of_ne (by simpa using hown)]
            constructor
            · rintro ⟨between, hbetween, hrest⟩
              cases hbetween
              obtain ⟨hkeyed, hvalues⟩ := ih.mp hrest
              exact ⟨⟨rfl, hkeyed⟩, hvalues⟩
            · rintro ⟨⟨_, hkeyed⟩, hvalues⟩
              exact ⟨_, rfl, ih.mpr ⟨hkeyed, hvalues⟩⟩

theorem foldlM_field_none_iff {later : Option β} :
    entries.foldlM (enterField key read) none = .ok later ↔
      Keyed entries ∧ ((valuesOf key entries = [] ∧ later = none) ∨
        ∃ scan part, valuesOf key entries = [scan] ∧ read scan = .ok part ∧
          later = some part) := by
  induction entries with
  | nil =>
      change (Except.ok none : Decoded (Option β)) = .ok later ↔ _
      rw [Except.ok.injEq]
      constructor
      · rintro rfl
        exact ⟨fun entry he => (List.not_mem_nil he).elim, .inl ⟨rfl, rfl⟩⟩
      · rintro ⟨_, ⟨_, rfl⟩ | ⟨scan, _, hvalues, _⟩⟩
        · rfl
        · cases hvalues
  | cons entry entries ih =>
      obtain ⟨own, scan⟩ := entry
      rw [List.foldlM_cons, Decoded.bind_eq_ok, Keyed, List.forall_mem_cons]
      cases own with
      | none => simp [enterField]
      | some own =>
          by_cases hown : own = key
          · subst hown
            rw [valuesOf_cons_self]
            have henter : enterField own read none (some own, scan) = (read scan).map some := by
              simp [enterField]
            simp only [henter, Decoded.map_eq_ok]
            constructor
            · rintro ⟨_, ⟨part, hpart, rfl⟩, hrest⟩
              obtain ⟨hkeyed, hvalues, hlater⟩ := foldlM_field_some_iff.mp hrest
              exact ⟨⟨rfl, hkeyed⟩, .inr ⟨scan, part, by rw [hvalues], hpart, hlater⟩⟩
            · rintro ⟨⟨_, hkeyed⟩, ⟨hnil, _⟩ | ⟨only, part, hvalues, hpart, hlater⟩⟩
              · cases hnil
              · obtain ⟨rfl, hrest⟩ := List.cons.inj hvalues
                exact ⟨some part, ⟨part, hpart, rfl⟩,
                  foldlM_field_some_iff.mpr ⟨hkeyed, hrest, hlater⟩⟩
          · rw [enterField_of_ne hown, valuesOf_cons_of_ne (by simpa using hown)]
            constructor
            · rintro ⟨between, hbetween, hrest⟩
              cases hbetween
              obtain ⟨hkeyed, hvalues⟩ := ih.mp hrest
              exact ⟨⟨rfl, hkeyed⟩, hvalues⟩
            · rintro ⟨⟨_, hkeyed⟩, hvalues⟩
              exact ⟨_, rfl, ih.mpr ⟨hkeyed, hvalues⟩⟩

theorem read_field_iff {value : α} :
    (field key read finish).read anything entries closed = .ok value ↔
      closed = true ∧ Keyed entries ∧ FieldGives key read finish entries value := by
  have hfold : ∀ slot later : Option β,
      entries.foldlM ((field key read finish).enter anything) slot = .ok later ↔
        entries.foldlM (enterField key read) slot = .ok later := by
    have henter : (field key read finish).enter anything = enterField key read :=
      funext fun slot => funext fun entry => enter_field slot entry
    intro slot later
    rw [henter]
    rfl
  rw [read_eq_ok_iff]
  constructor
  · rintro ⟨slot, hslot, hclosed, hbuild⟩
    replace hslot := (hfold none slot).mp hslot
    obtain ⟨hkeyed, ⟨hnil, rfl⟩ | ⟨scan, part, hvalues, hpart, rfl⟩⟩ :=
      foldlM_field_none_iff.mp hslot
    · exact ⟨hclosed, hkeyed, .inl ⟨hnil, hbuild⟩⟩
    · exact ⟨hclosed, hkeyed, .inr ⟨scan, part, hvalues, hpart, hbuild⟩⟩
  · rintro ⟨hclosed, hkeyed, ⟨hnil, hbuild⟩ | ⟨scan, part, hvalues, hpart, hbuild⟩⟩
    · exact ⟨none, (hfold none none).mpr (foldlM_field_none_iff.mpr
        ⟨hkeyed, .inl ⟨hnil, rfl⟩⟩), hclosed, hbuild⟩
    · exact ⟨some part, (hfold none (some part)).mpr (foldlM_field_none_iff.mpr
        ⟨hkeyed, .inr ⟨scan, part, hvalues, hpart, rfl⟩⟩), hclosed, hbuild⟩

end

theorem keyed_of_read {fields : Fields α} {value : α}
    (h : fields.read anything entries closed = .ok value) : closed = true ∧ Keyed entries := by
  obtain ⟨slots, hslots, hclosed, _⟩ := read_eq_ok_iff.mp h
  have hfold : ∀ slots later : fields.Slots,
      entries.foldlM (fields.enter anything) slots = .ok later → Keyed entries := by
    clear h hslots
    induction entries with
    | nil => exact fun _ _ _ entry he => (List.not_mem_nil he).elim
    | cons entry entries ih =>
        intro slots later h
        rw [List.foldlM_cons, Decoded.bind_eq_ok] at h
        obtain ⟨between, henter, hrest⟩ := h
        refine List.forall_mem_cons.mpr ⟨?_, ih between later hrest⟩
        obtain ⟨key, scan⟩ := entry
        cases key with
        | none => cases henter
        | some key => rfl
  exact ⟨hclosed, hfold _ slots hslots⟩

theorem disjoint_of_any {keys others : List String}
    (h : (keys.any fun key => others.contains key) = false) : keys.Disjoint others := by
  intro key hk ho
  rw [List.any_eq_false] at h
  exact h key hk (List.contains_iff_mem.mpr ho)

theorem lawful_seq {first : Fields (α → β)} {second : Fields α} (hf : first.Lawful)
    (hs : second.Lawful) : (first <*> second).Lawful :=
  lawful_both hf hs

theorem lawful_map {fields : Fields α} (f : α → β) (h : fields.Lawful) : (f <$> fields).Lawful :=
  lawful_seq (lawful_constant f) h

theorem read_seq_iff {first : Fields (α → β)} {second : Fields α} (hf : first.Lawful)
    (hs : second.Lawful) (hd : (first.keys.any fun key => second.keys.contains key) = false)
    {value : β} :
    (first <*> second).read anything entries closed = .ok value ↔
      ∃ make part, first.read anything entries closed = .ok make ∧
        second.read anything entries closed = .ok part ∧ make part = value :=
  read_both_iff hf hs (disjoint_of_any hd)

theorem read_map_iff {fields : Fields α} (f : α → β) (hl : fields.Lawful) {value : β} :
    (f <$> fields).read anything entries closed = .ok value ↔
      ∃ part, fields.read anything entries closed = .ok part ∧ f part = value := by
  apply (read_seq_iff (lawful_constant f) hl rfl).trans
  simp only [read_constant_iff]
  constructor
  · rintro ⟨_, part, ⟨_, _, rfl⟩, hpart, hvalue⟩
    exact ⟨part, hpart, hvalue⟩
  · rintro ⟨part, hpart, hvalue⟩
    obtain ⟨hclosed, hkeyed⟩ := keyed_of_read hpart
    exact ⟨f, part, ⟨hclosed, hkeyed, rfl⟩, hpart, hvalue⟩

end Fields
end OutlineWiki
