import OutlineWiki.Proofs.Json.Fields

/-!
Reading does not depend on the order of entries.

A step of reordering puts the entries of one object in another order, anywhere in a value.
A reader is steady when it gives the same for every reordered value, provided that it gives
anything. Readers of fields are steady when the readers of their values are.
-/

namespace OutlineWiki
namespace Scan

/-- The entries of one object in a value are put in another order. -/
inductive Reordering : Scan → Scan → Prop where
  | entries {entries others : List (Option String × Scan)} {closed : Bool}
      (perm : entries.Perm others) : Reordering (.object entries closed) (.object others closed)
  | item {before after : List Scan} {item other : Scan} {closed : Bool}
      (step : Reordering item other) :
      Reordering (.array (before ++ item :: after) closed)
        (.array (before ++ other :: after) closed)
  | value {before after : List (Option String × Scan)} {key : Option String} {value other : Scan}
      {closed : Bool} (step : Reordering value other) :
      Reordering (.object (before ++ (key, value) :: after) closed)
        (.object (before ++ (key, other) :: after) closed)

/-- The reader gives the same for a reordered value. -/
def Steady {α : Type} (read : Scan → Decoded α) : Prop :=
  ∀ scan other value, Reordering scan other → read scan = .ok value → read other = .ok value

/-- The entries are put in another order, or reordering takes place in one of their values. -/
inductive Moves : List (Option String × Scan) → List (Option String × Scan) → Prop where
  | perm {entries others : List (Option String × Scan)} (h : entries.Perm others) :
      Moves entries others
  | value {before after : List (Option String × Scan)} {key : Option String} {value other : Scan}
      (step : Reordering value other) :
      Moves (before ++ (key, value) :: after) (before ++ (key, other) :: after)

theorem Moves.keyed {entries others : List (Option String × Scan)} (h : Moves entries others)
    (hk : Keyed entries) : Keyed others := by
  cases h with
  | perm h => exact fun entry he => hk entry (h.mem_iff.mpr he)
  | @value before after key value other step =>
      intro entry he
      obtain he | rfl | he := List.mem_append.mp he |>.imp_right List.mem_cons.mp
      · exact hk entry (List.mem_append_left _ he)
      · exact hk (key, value) (List.mem_append_right _ List.mem_cons_self)
      · exact hk entry (List.mem_append_right _ (List.mem_cons_of_mem _ he))

theorem Moves.valuesOf {entries others : List (Option String × Scan)} (h : Moves entries others)
    (key : String) :
    (valuesOf key entries).Perm (valuesOf key others) ∨
      ∃ before after scan other, Reordering scan other ∧
        OutlineWiki.valuesOf key entries = before ++ scan :: after ∧
        OutlineWiki.valuesOf key others = before ++ other :: after := by
  cases h with
  | perm h => exact .inl (h.filterMap _)
  | @value before after own scan other step =>
      by_cases hown : own = some key
      · refine .inr ⟨OutlineWiki.valuesOf key before, OutlineWiki.valuesOf key after, scan, other,
          step, ?_, ?_⟩ <;>
        simp [OutlineWiki.valuesOf, hown]
      · refine .inl ?_
        simp [OutlineWiki.valuesOf, hown]

variable {α : Type}

/-- A reader that gives nothing for lists and objects is steady. -/
theorem steady_of_scalar {read : Scan → Decoded α}
    (harray : ∀ items closed value, read (.array items closed) ≠ .ok value)
    (hobject : ∀ entries closed value, read (.object entries closed) ≠ .ok value) :
    Steady read := by
  intro scan other value hstep h
  cases hstep with
  | entries perm => exact absurd h (hobject _ _ value)
  | item step => exact absurd h (harray _ _ value)
  | value step => exact absurd h (hobject _ _ value)

theorem steady_asString : Steady asString :=
  steady_of_scalar (fun _ _ _ h => by cases h) fun _ _ _ h => by cases h

theorem steady_asBool : Steady asBool :=
  steady_of_scalar (fun _ _ _ h => by cases h) fun _ _ _ h => by cases h

theorem steady_asByte : Steady asByte :=
  steady_of_scalar (fun _ _ _ h => by cases h) fun _ _ _ h => by cases h

theorem steady_asWord : Steady asWord :=
  steady_of_scalar (fun _ _ _ h => by cases h) fun _ _ _ h => by cases h

theorem steady_asChar : Steady asChar :=
  steady_of_scalar (fun _ _ _ h => by cases h) fun _ _ _ h => by cases h

theorem steady_asOption {read : Scan → Decoded α} (hr : Steady read) : Steady (asOption read) := by
  intro scan other value hstep h
  have hnull : ∀ part, Reordering part other → part ≠ .null := fun part hp => by
    cases hp <;> simp
  have hother : other ≠ .null := by
    cases hstep <;> simp
  rw [asOption] at h ⊢
  · obtain ⟨part, hpart, rfl⟩ := Decoded.map_eq_ok.mp h
    exact Decoded.map_eq_ok.mpr ⟨part, hr scan other part hstep hpart, rfl⟩
  · exact hother
  · exact hnull scan hstep

theorem asList_eq_ok_iff {read : Scan → Decoded α} {items : List Scan} {closed : Bool}
    {values : List α} :
    asList read (.array items closed) = .ok values ↔
      closed = true ∧ items.mapM read = .ok values := by
  simp only [asList, Decoded.bind_eq_ok, ensureClosed_eq_ok]
  constructor
  · rintro ⟨_, hvalues, _, hclosed, h⟩
    cases h
    exact ⟨hclosed, hvalues⟩
  · rintro ⟨hclosed, hvalues⟩
    exact ⟨values, hvalues, (), hclosed, rfl⟩

theorem mapM_append_cons_eq_ok {read : Scan → Decoded α} {before after : List Scan} {item : Scan}
    {values : List α} :
    (before ++ item :: after).mapM read = .ok values ↔
      ∃ first value last, before.mapM read = .ok first ∧ read item = .ok value ∧
        after.mapM read = .ok last ∧ first ++ value :: last = values := by
  simp only [List.mapM_append, List.mapM_cons, Decoded.bind_eq_ok]
  constructor
  · rintro ⟨first, hfirst, rest, ⟨value, hvalue, last, hlast, hrest⟩, h⟩
    cases hrest
    cases h
    exact ⟨first, value, last, hfirst, hvalue, hlast, rfl⟩
  · rintro ⟨first, value, last, hfirst, hvalue, hlast, rfl⟩
    exact ⟨first, hfirst, _, ⟨value, hvalue, last, hlast, rfl⟩, rfl⟩

theorem steady_asList {read : Scan → Decoded α} (hr : Steady read) : Steady (asList read) := by
  intro scan other values hstep h
  cases hstep with
  | entries perm => cases h
  | value step => cases h
  | item step =>
      obtain ⟨hclosed, hvalues⟩ := asList_eq_ok_iff.mp h
      obtain ⟨first, value, last, hfirst, hvalue, hlast, rfl⟩ := mapM_append_cons_eq_ok.mp hvalues
      exact asList_eq_ok_iff.mpr ⟨hclosed, mapM_append_cons_eq_ok.mpr
        ⟨first, value, last, hfirst, hr _ _ _ step hvalue, hlast, rfl⟩⟩

theorem steady_asNothing : Steady asNothing := by
  intro scan other value hstep h
  cases hstep with
  | item step => cases h
  | @entries entries others closed perm =>
      cases entries with
      | nil =>
          rw [List.nil_perm.mp perm]
          exact h
      | cons entry entries => cases closed <;> cases h
  | @value before after key value other closed step =>
      cases before <;> cases closed <;> cases h

/-- A variant stands alone or under the only key of an object, so there is nothing to move. -/
theorem steady_asVariant (variants : List (String × α)) : Steady (asVariant variants) := by
  intro scan other result hstep h
  cases hstep with
  | item step => cases h
  | @entries entries others closed perm =>
      cases entries with
      | nil => cases h
      | cons entry entries =>
          cases entries with
          | nil =>
              rw [List.singleton_perm.mp perm] at h
              exact h
          | cons second entries => cases entry with | mk key value => cases key <;> cases h
  | @value before after key value other closed step =>
      cases before with
      | nil =>
          cases after with
          | nil =>
              cases key with
              | none => cases h
              | some name =>
                  simp only [List.nil_append, asVariant, Decoded.bind_eq_ok] at h ⊢
                  obtain ⟨variant, hvariant, done, hnothing, hresult⟩ := h
                  exact ⟨variant, hvariant, done, steady_asNothing _ _ _ step hnothing, hresult⟩
          | cons entry after => cases key <;> cases h
      | cons entry before =>
          cases before <;> cases entry with | mk key value => cases key <;> cases h

theorem isWhole_of_reordering {scan other : Scan} (h : Reordering scan other) {depth : Nat}
    (hw : isWhole depth scan = true) : isWhole depth other = true := by
  induction h generalizing depth with
  | entries perm =>
      cases depth with
      | zero => cases hw
      | succ depth =>
          simp only [isWhole, Bool.and_eq_true, List.all_eq_true] at hw ⊢
          exact ⟨hw.1, fun entry he => hw.2 entry (perm.mem_iff.mpr he)⟩
  | item step ih =>
      cases depth with
      | zero => cases hw
      | succ depth =>
          simp only [isWhole, List.all_append, List.all_cons, Bool.and_eq_true] at hw ⊢
          exact ⟨hw.1, hw.2.1, ih hw.2.2.1, hw.2.2.2⟩
  | value step ih =>
      cases depth with
      | zero => cases hw
      | succ depth =>
          simp only [isWhole, List.all_append, List.all_cons, Bool.and_eq_true] at hw ⊢
          exact ⟨hw.1, hw.2.1, ⟨hw.2.2.1.1, ih hw.2.2.1.2⟩, hw.2.2.2⟩

end Scan

namespace Fields

open Scan (Steady Moves)

variable {α β : Type}

/-- The reader keeps to its keys, and gives the same when entries are moved. -/
structure Orderly (fields : Fields α) : Prop where
  lawful : fields.Lawful
  steady : ∀ entries others closed value, Moves entries others →
    fields.read anything entries closed = .ok value →
      fields.read anything others closed = .ok value

theorem FieldGives.moves {key : String} {read : Scan → Decoded β} {finish : Option β → Decoded α}
    {entries others : List (Option String × Scan)} {value : α} (hr : Steady read)
    (hm : Moves entries others) (h : FieldGives key read finish entries value) :
    FieldGives key read finish others value := by
  obtain ⟨hnil, hfinish⟩ | ⟨scan, part, hvalues, hpart, hfinish⟩ := h
  · obtain hperm | ⟨before, after, _, _, _, heq, _⟩ := hm.valuesOf key
    · rw [hnil] at hperm
      exact .inl ⟨List.nil_perm.mp hperm, hfinish⟩
    · rw [hnil] at heq
      simp at heq
  · obtain hperm | ⟨before, after, first, other, hstep, heq, hother⟩ := hm.valuesOf key
    · rw [hvalues] at hperm
      exact .inr ⟨scan, part, (List.singleton_perm.mp hperm).symm, hpart, hfinish⟩
    · rw [hvalues] at heq
      obtain ⟨rfl, hcons⟩ | hmore := List.singleton_eq_append_iff.mp heq
      · obtain ⟨rfl, rfl⟩ := List.cons.inj hcons
        exact .inr ⟨other, part, hother, hr _ _ _ hstep hpart, hfinish⟩
      · simp at hmore

theorem orderly_field {key : String} {read : Scan → Decoded β} {finish : Option β → Decoded α}
    (hr : Steady read) : (field key read finish).Orderly where
  lawful := lawful_field key read finish
  steady entries others closed value hm h := by
    obtain ⟨hclosed, hkeyed, hgives⟩ := read_field_iff.mp h
    exact read_field_iff.mpr ⟨hclosed, hm.keyed hkeyed, hgives.moves hr hm⟩

theorem orderly_constant (value : α) : (constant value).Orderly where
  lawful := lawful_constant value
  steady entries others closed result hm h := by
    obtain ⟨hclosed, hkeyed, hvalue⟩ := read_constant_iff.mp h
    exact read_constant_iff.mpr ⟨hclosed, hm.keyed hkeyed, hvalue⟩

theorem orderly_seq {first : Fields (α → β)} {second : Fields α} (hf : first.Orderly)
    (hs : second.Orderly) (hd : (first.keys.any fun key => second.keys.contains key) = false) :
    (first <*> second).Orderly where
  lawful := lawful_both hf.lawful hs.lawful
  steady entries others closed value hm h := by
    obtain ⟨make, part, hmake, hpart, hvalue⟩ := (read_seq_iff hf.lawful hs.lawful hd).mp h
    exact (read_seq_iff hf.lawful hs.lawful hd).mpr
      ⟨make, part, hf.steady _ _ _ _ hm hmake, hs.steady _ _ _ _ hm hpart, hvalue⟩

theorem orderly_map {fields : Fields α} (f : α → β) (h : fields.Orderly) :
    (f <$> fields).Orderly :=
  orderly_seq (orderly_constant f) h rfl

end Fields
end OutlineWiki
