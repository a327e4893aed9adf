import Mathlib.Data.List.Infix
import Mathlib.Data.List.Nodup
import OutlineWiki.Markup.Footnotes

/-!
Growth of the numbers of footnotes.

Numbers are only ever added at the end, so a registry is below another one when its
references are the first of the other's. Whatever has a number keeps it in every
registry above. The second half says in which order the numbers of a list of
references stand when they are met one after another.
-/

namespace OutlineWiki

namespace Node

variable {node : Node} {footnote : Footnote}

theorem kind_of_labelled {label : String} (h : node.footnote? = some (.labelled label)) :
    node.kind = .footnoteReference (some label) := by
  rw [footnote?] at h
  split at h
  · next kind =>
      cases h
      exact kind
  · cases h
  · cases h

theorem id_of_anonymous {id : Nat} (h : node.footnote? = some (.anonymous id)) : node.id = id := by
  rw [footnote?] at h
  split at h
  · cases h
  · cases h
    rfl
  · cases h

/-- Only references refer to a footnote. -/
theorem exists_label (h : node.footnote? = some footnote) :
    ∃ label, node.kind = .footnoteReference label := by
  rw [footnote?] at h
  split at h
  · next kind => exact ⟨_, kind⟩
  · next kind => exact ⟨_, kind⟩
  · cases h

end Node

namespace Footnotes

/-- The registry is the beginning of another one. -/
instance : LE Footnotes :=
  ⟨fun notes later => notes.references <+: later.references⟩

theorem le_refl (notes : Footnotes) : notes ≤ notes :=
  List.prefix_refl notes.references

theorem le_trans {first second third : Footnotes} (h : first ≤ second)
    (hs : second ≤ third) : first ≤ third :=
  List.IsPrefix.trans h hs

theorem le_antisymm {notes later : Footnotes} (h : notes ≤ later) (hl : later ≤ notes) :
    notes = later := by
  have hr : notes.references = later.references :=
    List.IsPrefix.eq_of_length h (Nat.le_antisymm h.length_le hl.length_le)
  cases notes
  cases later
  exact congrArg Footnotes.mk hr

theorem referenceAt?_mono {notes later : Footnotes} (h : notes ≤ later) {place : Nat}
    {reference : Node} (hr : notes.referenceAt? place = some reference) :
    later.referenceAt? place = some reference := by
  obtain ⟨more, hmore⟩ := h
  have hp : place < notes.references.length := (List.getElem?_eq_some_iff.mp hr).1
  rw [referenceAt?, ← hmore, List.getElem?_append_left hp]
  exact hr

theorem get?_eq_some_iff {notes : Footnotes} {footnote : Footnote} {number : Nat} :
    notes.get? footnote = some number ↔
      ∃ place, number = place + 1 ∧
        notes.references.findIdx? (fun reference => reference.footnote? == some footnote) =
          some place := by
  simp only [get?, Option.map_eq_some_iff]
  constructor
  · rintro ⟨place, hplace, rfl⟩
    exact ⟨place, rfl, hplace⟩
  · rintro ⟨place, rfl, hplace⟩
    exact ⟨place, hplace, rfl⟩

/-- The reference with the number of a footnote refers to this footnote. -/
theorem reference_of_get? {notes : Footnotes} {footnote : Footnote} {number : Nat}
    (h : notes.get? footnote = some number) :
    ∃ place reference, number = place + 1 ∧ notes.referenceAt? place = some reference ∧
      reference.footnote? = some footnote := by
  obtain ⟨place, rfl, hplace⟩ := get?_eq_some_iff.mp h
  rw [List.findIdx?_eq_some_iff_getElem] at hplace
  obtain ⟨hlt, heq, _⟩ := hplace
  exact ⟨place, notes.references[place], rfl, List.getElem?_eq_getElem hlt, eq_of_beq heq⟩

theorem get?_mono {notes later : Footnotes} (h : notes ≤ later) {footnote : Footnote}
    {number : Nat} (hn : notes.get? footnote = some number) :
    later.get? footnote = some number := by
  obtain ⟨more, hmore⟩ := h
  obtain ⟨place, rfl, hplace⟩ := get?_eq_some_iff.mp hn
  refine get?_eq_some_iff.mpr ⟨place, rfl, ?_⟩
  rw [← hmore, List.findIdx?_append, hplace]
  rfl

theorem get?_le_size {notes : Footnotes} {footnote : Footnote} {number : Nat}
    (h : notes.get? footnote = some number) : number ≤ notes.size := by
  obtain ⟨place, reference, rfl, hr, _⟩ := reference_of_get? h
  exact (List.getElem?_eq_some_iff.mp hr).1

theorem get?_append_new {notes : Footnotes} {reference : Node} {footnote : Footnote}
    (hf : reference.footnote? = some footnote) (hn : notes.get? footnote = none) :
    (⟨notes.references ++ [reference]⟩ : Footnotes).get? footnote = some (notes.size + 1) := by
  have hnone :
      notes.references.findIdx? (fun other => other.footnote? == some footnote) = none := by
    simpa only [get?, Option.map_eq_none_iff] using hn
  refine get?_eq_some_iff.mpr ⟨notes.size, rfl, ?_⟩
  simp [List.findIdx?_append, hnone, hf, size]

/-- The registry after a reference has been met. -/
def meet (notes : Footnotes) (reference : Node) : Footnotes :=
  (notes.number reference).2

theorem number_of_get? {notes : Footnotes} {reference : Node} {footnote : Footnote}
    {number : Nat} (hf : reference.footnote? = some footnote)
    (hn : notes.get? footnote = some number) :
    notes.number reference = (some number, notes) := by
  simp [Footnotes.number, hf, hn]

theorem number_of_new {notes : Footnotes} {reference : Node} {footnote : Footnote}
    (hf : reference.footnote? = some footnote) (hn : notes.get? footnote = none) :
    notes.number reference = (some (notes.size + 1), ⟨notes.references ++ [reference]⟩) := by
  simp [Footnotes.number, hf, hn]

theorem number_of_other {notes : Footnotes} {reference : Node}
    (hf : reference.footnote? = none) : notes.number reference = (none, notes) := by
  simp [Footnotes.number, hf]

theorem le_meet (notes : Footnotes) (reference : Node) : notes ≤ notes.meet reference := by
  rw [meet]
  cases hf : reference.footnote? with
  | none => rw [number_of_other hf]; exact le_refl notes
  | some footnote =>
      cases hn : notes.get? footnote with
      | none => rw [number_of_new hf hn]; exact List.prefix_append _ _
      | some number => rw [number_of_get? hf hn]; exact le_refl notes

/-- A reference that is met shows the number that its footnote then has. -/
theorem number_fst (notes : Footnotes) {reference : Node} {footnote : Footnote}
    (hf : reference.footnote? = some footnote) :
    (notes.number reference).1 = (notes.meet reference).get? footnote := by
  rw [meet]
  cases hn : notes.get? footnote with
  | none => rw [number_of_new hf hn, get?_append_new hf hn]
  | some number => rw [number_of_get? hf hn, hn]

theorem get?_meet_isSome (notes : Footnotes) {reference : Node} {footnote : Footnote}
    (hf : reference.footnote? = some footnote) :
    ∃ number, (notes.meet reference).get? footnote = some number := by
  rw [meet]
  cases hn : notes.get? footnote with
  | none => exact ⟨_, by rw [number_of_new hf hn, get?_append_new hf hn]⟩
  | some number => exact ⟨number, by rw [number_of_get? hf hn, hn]⟩

theorem get?_eq_none_iff {notes : Footnotes} {footnote : Footnote} :
    notes.get? footnote = none ↔ some footnote ∉ notes.references.map Node.footnote? := by
  simp only [get?, Option.map_eq_none_iff, List.findIdx?_eq_none_iff, List.mem_map,
    beq_eq_false_iff_ne]
  grind

theorem get?_meet_of_ne (notes : Footnotes) {reference : Node} {footnote : Footnote}
    (h : reference.footnote? ≠ some footnote) :
    (notes.meet reference).get? footnote = notes.get? footnote := by
  rw [meet]
  cases hf : reference.footnote? with
  | none => rw [number_of_other hf]
  | some own =>
      cases hn : notes.get? own with
      | some number => rw [number_of_get? hf hn]
      | none =>
          have hne : (reference.footnote? == some footnote) = false := beq_eq_false_iff_ne.mpr h
          rw [number_of_new hf hn]
          simp [get?, List.findIdx?_append, hne]

/-- What gets its number later has a number above all that are there. -/
theorem size_lt_of_get? {notes later : Footnotes} (h : notes ≤ later) {footnote : Footnote}
    {number : Nat} (hn : notes.get? footnote = none) (hl : later.get? footnote = some number) :
    notes.size < number := by
  obtain ⟨place, reference, rfl, hr, hf⟩ := reference_of_get? hl
  refine Nat.lt_succ_of_le (Nat.le_of_not_lt fun hlt => ?_)
  have hat : notes.referenceAt? place = some notes.references[place] :=
    List.getElem?_eq_getElem hlt
  have hsame := (referenceAt?_mono h hat).symm.trans hr
  cases hsame
  exact get?_eq_none_iff.mp hn (hf ▸ List.mem_map_of_mem (List.getElem_mem hlt))

/-- The registry after references have been met one after another. -/
def meetAll (notes : Footnotes) (references : List Node) : Footnotes :=
  references.foldl meet notes

theorem meetAll_append (notes : Footnotes) (references more : List Node) :
    notes.meetAll (references ++ more) = (notes.meetAll references).meetAll more :=
  List.foldl_append

theorem le_meetAll (notes : Footnotes) (references : List Node) :
    notes ≤ notes.meetAll references := by
  induction references generalizing notes with
  | nil => exact le_refl notes
  | cons reference references ih => exact le_trans (notes.le_meet reference) (ih _)

theorem get?_meetAll_isSome_iff {notes : Footnotes} {references : List Node}
    {footnote : Footnote} :
    ((notes.meetAll references).get? footnote).isSome = true ↔
      (notes.get? footnote).isSome = true ∨
        ∃ reference ∈ references, reference.footnote? = some footnote := by
  induction references generalizing notes with
  | nil => simp [meetAll]
  | cons reference references ih =>
      rw [show notes.meetAll (reference :: references) =
        (notes.meet reference).meetAll references from rfl, ih, List.exists_mem_cons_iff]
      by_cases h : reference.footnote? = some footnote
      · obtain ⟨number, hn⟩ := notes.get?_meet_isSome h
        simp [h, hn]
      · simp [notes.get?_meet_of_ne h, h]

/-- The place of the first reference to a footnote, or the length when there is none. -/
def firstPlace (references : List Node) (footnote : Footnote) : Nat :=
  references.findIdx fun reference => reference.footnote? == some footnote

theorem lt_of_firstPlace_lt {references : List Node} {first second : Footnote} {i j : Nat}
    (hi : (meetAll {} references).get? first = some i)
    (hj : (meetAll {} references).get? second = some j)
    (h : firstPlace references first < firstPlace references second) : i < j := by
  let place := firstPlace references first
  let before := meetAll {} (references.take (place + 1))
  have hle : before ≤ meetAll {} references := by
    rw [← List.take_append_drop (place + 1) references, meetAll_append]
    exact le_meetAll _ _
  have hlt : place < references.length := Nat.lt_of_lt_of_le h List.findIdx_le_length
  have hplace := List.findIdx_getElem (w := hlt)
  have hfirst : (before.get? first).isSome = true :=
    get?_meetAll_isSome_iff.mpr (.inr ⟨references[place],
      List.mem_take_iff_getElem.mpr ⟨place, by omega, rfl⟩, eq_of_beq hplace⟩)
  have hsecond : before.get? second = none := by
    rw [← Option.not_isSome_iff_eq_none]
    intro hsome
    obtain hsome | ⟨reference, hr, hf⟩ := get?_meetAll_isSome_iff.mp hsome
    · cases hsome
    · obtain ⟨earlier, he, rfl⟩ := List.mem_take_iff_getElem.mp hr
      have hbefore : earlier < firstPlace references second := by omega
      have hnot := List.not_of_lt_findIdx hbefore
      simp [hf] at hnot
  obtain ⟨number, hn⟩ := Option.isSome_iff_exists.mp hfirst
  have heq : number = i := Option.some.inj ((get?_mono hle hn).symm.trans hi)
  exact Nat.lt_of_le_of_lt (heq ▸ get?_le_size hn) (size_lt_of_get? hle hsecond hj)

/-- Footnotes are numbered in the order of their first references. -/
theorem lt_iff_firstPlace_lt {references : List Node} {first second : Footnote} {i j : Nat}
    (hi : (meetAll {} references).get? first = some i)
    (hj : (meetAll {} references).get? second = some j) :
    i < j ↔ firstPlace references first < firstPlace references second := by
  refine ⟨fun hlt => ?_, lt_of_firstPlace_lt hi hj⟩
  obtain h | h | h := Nat.lt_trichotomy (firstPlace references first) (firstPlace references second)
  · exact h
  · have hmem : ∃ reference ∈ references, reference.footnote? = some first := by
      simpa [get?] using get?_meetAll_isSome_iff.mp (Option.isSome_of_eq_some hi)
    have hplace : firstPlace references first < references.length := by
      obtain ⟨reference, hr, hf⟩ := hmem
      exact List.findIdx_lt_length_of_exists ⟨reference, hr, beq_iff_eq.mpr hf⟩
    have hf := eq_of_beq (List.findIdx_getElem (w := hplace))
    have hs := eq_of_beq (List.findIdx_getElem (w := (h ▸ hplace :
      firstPlace references second < references.length)))
    have hsame : first = second := by
      change references[firstPlace references first].footnote? = some first at hf
      change references[firstPlace references second].footnote? = some second at hs
      simp only [h] at hf
      exact Option.some.inj (hf.symm.trans hs)
    subst hsame
    cases hi.symm.trans hj
    exact absurd hlt (Nat.lt_irrefl i)
  · exact absurd hlt (Nat.lt_asymm (lt_of_firstPlace_lt hj hi h))

end Footnotes
end OutlineWiki
