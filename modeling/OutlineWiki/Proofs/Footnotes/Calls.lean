import OutlineWiki.Outline.Build
import OutlineWiki.Proofs.Outline.Numbering
import OutlineWiki.Proofs.Rendering.Within

/-!
Calls for the numbers of footnotes, one after another.

A call is answered by the number that its footnote has in the end, since numbers are kept. So
everything about a sequence of calls can be read off the last registry, in which each footnote
stands once, with the first reference that was called. A ledger that writes every number into a
table of its own, beside the list of first references, gives the same answers.
-/

namespace OutlineWiki

/-- The nodes refer to one footnote: both carry its label, or they are its only reference. -/
def Node.SharesFootnote (first second : Node) : Prop :=
  (∃ label, first.kind = .footnoteReference (some label) ∧
    second.kind = .footnoteReference (some label)) ∨
  (first.kind = .footnoteReference none ∧ first = second)

/-- The first references of footnotes in order of numbers, with a table of the numbers. -/
structure Ledger where
  numbers : List (Footnote × Nat) := []
  references : List Node := []

/-- Looks up the number of the footnote of a reference, or writes down the next one. -/
def Ledger.number (ledger : Ledger) (reference : Node) : Option Nat × Ledger :=
  match reference.footnote? with
  | none => (none, ledger)
  | some footnote =>
    match ledger.numbers.lookup footnote with
    | some number => (some number, ledger)
    | none =>
      let number := ledger.references.length + 1
      (some number, ⟨(footnote, number) :: ledger.numbers, ledger.references ++ [reference]⟩)

/-- The answers to calls one after another, and what is left after the last of them. -/
def callAll {σ : Type} (number : σ → Node → Option Nat × σ) : List Node → σ →
    List (Option Nat) × σ
  | [], state => ([], state)
  | call :: calls, state =>
    let first := number state call
    let rest := callAll number calls first.2
    (first.1 :: rest.1, rest.2)

/-- The ledger has the references of a registry, and its table has the numbers of it. -/
structure Ledger.Agrees (ledger : Ledger) (notes : Footnotes) : Prop where
  references : ledger.references = notes.references
  lookup : ∀ footnote, ledger.numbers.lookup footnote = notes.get? footnote

theorem Ledger.agrees_empty : Agrees {} {} :=
  ⟨rfl, fun _ => rfl⟩

/-- A call is answered alike, and leaves a ledger and a registry that still agree. -/
theorem Ledger.Agrees.number {ledger : Ledger} {notes : Footnotes} (h : ledger.Agrees notes)
    (reference : Node) :
    (ledger.number reference).1 = (notes.number reference).1 ∧
      (ledger.number reference).2.Agrees (notes.number reference).2 := by
  cases hf : reference.footnote? with
  | none =>
      rw [Footnotes.number_of_other hf, Ledger.number, hf]
      exact ⟨rfl, h⟩
  | some footnote =>
      cases hn : notes.get? footnote with
      | some number =>
          rw [Footnotes.number_of_get? hf hn, Ledger.number, hf]
          simp only [h.lookup, hn]
          exact ⟨trivial, h⟩
      | none =>
          rw [Footnotes.number_of_new hf hn, Ledger.number, hf]
          simp only [h.lookup, hn, h.references]
          refine ⟨rfl, rfl, fun other => ?_⟩
          by_cases hother : other = footnote
          · rw [hother, List.lookup_cons_self, Footnotes.get?_append_new hf hn]
            rfl
          · have hne : reference.footnote? ≠ some other := by
              rw [hf]
              exact fun heq => hother (Option.some.inj heq).symm
            have hmeet := notes.get?_meet_of_ne hne
            rw [Footnotes.meet, Footnotes.number_of_new hf hn] at hmeet
            rw [List.lookup_cons, beq_false_of_ne hother, hmeet]
            exact h.lookup other

theorem Ledger.Agrees.callAll {ledger : Ledger} {notes : Footnotes} (h : ledger.Agrees notes)
    (calls : List Node) :
    (callAll Ledger.number calls ledger).1 = (callAll Footnotes.number calls notes).1 ∧
      (callAll Ledger.number calls ledger).2.Agrees
        (callAll Footnotes.number calls notes).2 := by
  induction calls generalizing ledger notes with
  | nil => exact ⟨rfl, h⟩
  | cons call calls ih =>
      obtain ⟨hanswer, hstep⟩ := h.number call
      obtain ⟨hanswers, hrun⟩ := ih hstep
      exact ⟨congrArg₂ List.cons hanswer hanswers, hrun⟩

theorem Node.isFootnoteReference_iff {node : Node} :
    node.kind.isFootnoteReference = true ↔ ∃ footnote, node.footnote? = some footnote := by
  rw [footnote?]
  cases node.kind with
  | footnoteReference label => cases label <;> simp [Kind.isFootnoteReference]
  | _ => simp [Kind.isFootnoteReference]

/-- In a prepared tree, the identity of a footnote tells whether references share it. -/
theorem Node.footnote?_eq_iff_shares {root first second : Node} (hf : first ∈ root.prepare.walk)
    (hs : second ∈ root.prepare.walk) (hreference : first.kind.isFootnoteReference = true)
    (hother : second.kind.isFootnoteReference = true) :
    first.footnote? = second.footnote? ↔ first.SharesFootnote second := by
  have hid : first.id = second.id → first = second := Node.eq_of_id_eq hf hs
  rw [footnote?, footnote?, SharesFootnote]
  cases hkind : first.kind with
  | footnoteReference label =>
      cases hmore : second.kind with
      | footnoteReference other => cases label <;> cases other <;> grind
      | _ => rw [hmore] at hother; cases hother
  | _ => rw [hkind] at hreference; cases hreference

namespace Footnotes

variable {notes : Footnotes} {calls : List Node} {footnote : Footnote} {number : Nat}

theorem callAll_snd (calls : List Node) (notes : Footnotes) :
    (callAll Footnotes.number calls notes).2 = notes.meetAll calls := by
  induction calls generalizing notes with
  | nil => rfl
  | cons call calls ih => exact ih (notes.meet call)

/-- Each call is answered by the number that its footnote has in the end. -/
theorem callAll_fst (calls : List Node) (notes : Footnotes) :
    (callAll Footnotes.number calls notes).1 =
      calls.map fun call => call.footnote?.bind (notes.meetAll calls).get? := by
  induction calls generalizing notes with
  | nil => rfl
  | cons call calls ih =>
      have hfirst : (notes.number call).1 =
          call.footnote?.bind ((notes.meet call).meetAll calls).get? := by
        cases hf : call.footnote? with
        | none => rw [number_of_other hf]; rfl
        | some footnote =>
            obtain ⟨number, hn⟩ := notes.get?_meet_isSome hf
            rw [notes.number_fst hf, hn]
            exact (get?_mono (le_meetAll _ calls) hn).symm
      exact congrArg₂ List.cons hfirst (ih (notes.meet call))

theorem callAll_append (before after : List Node) (notes : Footnotes) :
    (callAll Footnotes.number (before ++ after) notes).1 =
      (callAll Footnotes.number before notes).1 ++
        (callAll Footnotes.number after (notes.meetAll before)).1 := by
  induction before generalizing notes with
  | nil => rfl
  | cons call before ih => exact congrArg (List.cons _) (ih (notes.meet call))

/-- The registry knows each footnote by the first reference that was called. -/
theorem find?_meetAll (calls : List Node) (notes : Footnotes) (footnote : Footnote) :
    (notes.meetAll calls).references.find? (·.footnote? == some footnote) =
      (notes.references ++ calls).find? (·.footnote? == some footnote) := by
  induction calls generalizing notes with
  | nil => rw [List.append_nil]; rfl
  | cons call calls ih =>
      have hcall : (notes.meet call).references.find? (·.footnote? == some footnote) =
          (notes.references ++ [call]).find? (·.footnote? == some footnote) := by
        rw [meet]
        cases hf : call.footnote? with
        | none => rw [number_of_other hf]; simp [List.find?_append, hf]
        | some own =>
            cases hn : notes.get? own with
            | none => rw [number_of_new hf hn]
            | some number =>
                rw [number_of_get? hf hn, List.find?_append]
                by_cases hown : own = footnote
                · obtain ⟨place, reference, _, hr, hreference⟩ := reference_of_get? (hown ▸ hn)
                  have hknown : (notes.references.find?
                      (·.footnote? == some footnote)).isSome = true :=
                    List.find?_isSome.mpr
                      ⟨reference, List.mem_of_getElem? hr, beq_iff_eq.mpr hreference⟩
                  rw [Option.or_of_isSome hknown]
                · simp [hf, hown]
      rw [show notes.meetAll (call :: calls) = (notes.meet call).meetAll calls from rfl, ih,
        List.find?_append, hcall, ← List.find?_append, List.append_assoc]
      rfl

/-- The registry finds a footnote where its number says. -/
theorem find?_of_get? {place : Nat} (h : notes.get? footnote = some (place + 1)) :
    notes.references.find? (·.footnote? == some footnote) = notes.referenceAt? place := by
  obtain ⟨_, heq, hplace⟩ := get?_eq_some_iff.mp h
  cases heq
  rw [referenceAt?, List.find?_eq_bind_findIdx?_getElem?, hplace, Option.bind_some]

theorem get?_inj {first second : Footnote} (hf : notes.get? first = some number)
    (hs : notes.get? second = some number) : first = second := by
  obtain ⟨place, reference, rfl, hr, hreference⟩ := reference_of_get? hf
  obtain ⟨other, later, heq, hl, hlater⟩ := reference_of_get? hs
  cases heq
  cases hr.symm.trans hl
  exact Option.some.inj (hreference.symm.trans hlater)

theorem one_le_of_get? (h : notes.get? footnote = some number) : 1 ≤ number := by
  obtain ⟨place, _, rfl, _⟩ := reference_of_get? h
  exact Nat.le_add_left 1 place

theorem of_meetAll {root : Node} (h : ∀ call ∈ calls, call ∈ root.walk) (hof : Of root notes) :
    Of root (notes.meetAll calls) := by
  induction calls generalizing notes with
  | nil => exact hof
  | cons call calls ih =>
      obtain ⟨hcall, hcalls⟩ := List.forall_mem_cons.mp h
      exact ih hcalls (hof.meet hcall)

/-- The numbers that the footnotes of calls have after the last call. -/
def lastNumbers (calls : List Node) : List (Option Nat) :=
  calls.map fun call => call.footnote?.bind (meetAll {} calls).get?

theorem lastNumbers_eq (calls : List Node) :
    (callAll Footnotes.number calls {}).1 = lastNumbers calls :=
  callAll_fst calls {}

theorem exists_call_of_get? (h : (meetAll {} calls).get? footnote = some number) :
    ∃ call ∈ calls, call.footnote? = some footnote := by
  simpa [get?] using get?_meetAll_isSome_iff.mp (Option.isSome_of_eq_some h)

theorem get?_meetAll_of_mem {call : Node} (hcall : call ∈ calls)
    (hf : call.footnote? = some footnote) :
    ∃ number, (meetAll {} calls).get? footnote = some number :=
  Option.isSome_iff_exists.mp (get?_meetAll_isSome_iff.mpr (.inr ⟨call, hcall, hf⟩))

theorem lastNumbers_of_getElem? {call : Node} {i : Nat} (hi : calls[i]? = some call)
    (hf : call.footnote? = some footnote) :
    (lastNumbers calls)[i]? = some ((meetAll {} calls).get? footnote) := by
  rw [lastNumbers, List.getElem?_map, hi, Option.map_some, hf, Option.bind_some]

/-- A place has the number of a footnote when its call refers to the footnote. -/
theorem getElem?_lastNumbers_iff {i : Nat}
    (hn : (meetAll {} calls).get? footnote = some number) :
    (lastNumbers calls)[i]? = some (some number) ↔
      ∃ call, calls[i]? = some call ∧ call.footnote? = some footnote := by
  rw [lastNumbers, List.getElem?_map, Option.map_eq_some_iff]
  refine exists_congr fun call => and_congr_right fun _ => ?_
  rw [Option.bind_eq_some_iff]
  constructor
  · rintro ⟨key, hk, hnumber⟩
    rwa [get?_inj hn hnumber]
  · exact fun hf => ⟨footnote, hf, hn⟩

/-- The numbers are those from one on, without a gap. -/
theorem mem_lastNumbers_iff {root : Node} (hof : Of root (meetAll {} calls)) :
    some number ∈ lastNumbers calls ↔ 1 ≤ number ∧ number ≤ (meetAll {} calls).size := by
  rw [lastNumbers, List.mem_map]
  constructor
  · rintro ⟨call, _, hnumber⟩
    obtain ⟨footnote, _, hn⟩ := Option.bind_eq_some_iff.mp hnumber
    exact ⟨one_le_of_get? hn, get?_le_size hn⟩
  · rintro ⟨hpos, hle⟩
    obtain ⟨place, rfl⟩ := Nat.exists_eq_add_of_le' hpos
    have hat : (meetAll {} calls).referenceAt? place =
        some ((meetAll {} calls).references.get ⟨place, hle⟩) := List.getElem?_eq_getElem hle
    obtain ⟨footnote, _, hn⟩ := hof.get?_of_referenceAt? hat
    obtain ⟨call, hcall, hshared⟩ := exists_call_of_get? hn
    exact ⟨call, hcall, by rw [hshared]; exact hn⟩

/-- References have the same number when they have the same footnote. -/
theorem lastNumbers_eq_iff {first second : Node} {i j : Nat} (hi : calls[i]? = some first)
    (hj : calls[j]? = some second) (hreference : first.kind.isFootnoteReference = true)
    (hother : second.kind.isFootnoteReference = true) :
    (lastNumbers calls)[i]? = (lastNumbers calls)[j]? ↔ first.footnote? = second.footnote? := by
  obtain ⟨footnote, hf⟩ := Node.isFootnoteReference_iff.mp hreference
  obtain ⟨key, hk⟩ := Node.isFootnoteReference_iff.mp hother
  obtain ⟨number, hn⟩ := get?_meetAll_of_mem (List.mem_of_getElem? hi) hf
  rw [lastNumbers_of_getElem? hi hf, lastNumbers_of_getElem? hj hk, hf, hk, Option.some.injEq,
    Option.some.injEq]
  constructor
  · exact fun heq => get?_inj hn (heq ▸ hn)
  · exact fun heq => congrArg _ heq

/-- Earlier calls have their numbers already when later ones follow. -/
theorem callAll_isPrefix (before after : List Node) :
    (callAll Footnotes.number before {}).1 <+: lastNumbers (before ++ after) ∧
      (callAll Footnotes.number before {}).2 ≤ meetAll {} (before ++ after) := by
  rw [← lastNumbers_eq, callAll_append, callAll_snd, meetAll_append]
  exact ⟨List.prefix_append _ _, le_meetAll _ after⟩

/-- The reference at a place is the first call that was answered by the number of the place. -/
theorem referenceAt?_meetAll_iff {root call : Node} {place : Nat}
    (hof : Of root (meetAll {} calls)) :
    (meetAll {} calls).referenceAt? place = some call ↔
      ∃ i : Nat, calls[i]? = some call ∧ (lastNumbers calls)[i]? = some (some (place + 1)) ∧
        ∀ j < i, (lastNumbers calls)[j]? ≠ some (some (place + 1)) := by
  have hfind : ∀ footnote, (meetAll {} calls).get? footnote = some (place + 1) →
      ((meetAll {} calls).referenceAt? place = some call ↔
        calls.find? (·.footnote? == some footnote) = some call) := by
    intro footnote hn
    rw [← find?_of_get? hn, find?_meetAll, List.nil_append]
  constructor
  · intro hat
    obtain ⟨footnote, hf, hn⟩ := hof.get?_of_referenceAt? hat
    obtain ⟨_, i, hi, rfl, hearlier⟩ :=
      List.find?_eq_some_iff_getElem.mp ((hfind footnote hn).mp hat)
    have hcall : calls[i]? = some calls[i] := List.getElem?_eq_getElem hi
    refine ⟨i, hcall, (getElem?_lastNumbers_iff hn).mpr ⟨_, hcall, hf⟩, fun j hj hsame => ?_⟩
    obtain ⟨other, hother, hshared⟩ := (getElem?_lastNumbers_iff hn).mp hsame
    obtain ⟨_, rfl⟩ := List.getElem?_eq_some_iff.mp hother
    have hdiffers := hearlier j hj
    rw [hshared, beq_self_eq_true] at hdiffers
    cases hdiffers
  · rintro ⟨i, hi, hnumber, hearlier⟩
    rw [lastNumbers, List.getElem?_map, hi, Option.map_some, Option.some.injEq] at hnumber
    obtain ⟨footnote, hf, hn⟩ := Option.bind_eq_some_iff.mp hnumber
    obtain ⟨hlt, rfl⟩ := List.getElem?_eq_some_iff.mp hi
    refine (hfind footnote hn).mpr (List.find?_eq_some_iff_getElem.mpr
      ⟨beq_iff_eq.mpr hf, i, hlt, rfl, fun j hj => ?_⟩)
    rw [Bool.not_eq_true', beq_eq_false_iff_ne]
    exact fun hshared => hearlier j hj ((getElem?_lastNumbers_iff hn).mpr
      ⟨_, List.getElem?_eq_getElem (hj.trans hlt), hshared⟩)

/-- What calls for the numbers of nodes were answered, and the registry that they left. -/
structure Answered (calls : List Node) (answers : List (Option Nat)) (notes : Footnotes) :
    Prop where
  length : answers.length = calls.length
  /-- The numbers that were given are those from one on, without a gap. -/
  given : ∀ number, some number ∈ answers ↔ 1 ≤ number ∧ number ≤ notes.size
  /-- References were given the same number when they share a footnote, and only then. -/
  same : ∀ (i j : Nat) (first second : Node), calls[i]? = some first → calls[j]? = some second →
    first.kind.isFootnoteReference = true → second.kind.isFootnoteReference = true →
    (answers[i]? = answers[j]? ↔ first.SharesFootnote second)
  /-- Later calls change neither the numbers of footnotes nor earlier answers. -/
  kept : ∀ before after, calls = before ++ after →
    let earlier := callAll Footnotes.number before {}
    earlier.1 <+: answers ∧ earlier.2 ≤ notes ∧
      ∀ footnote number, earlier.2.get? footnote = some number →
        notes.get? footnote = some number
  /-- The number of a footnote is the one that its references were given, and will be given. -/
  get : ∀ (i : Nat) (call : Node) (footnote : Footnote), calls[i]? = some call →
    call.footnote? = some footnote →
    ∃ number, answers[i]? = some (some number) ∧ notes.get? footnote = some number
  known : ∀ reference footnote number, reference.footnote? = some footnote →
    notes.get? footnote = some number → notes.number reference = (some number, notes)
  unknown : ∀ footnote,
    notes.get? footnote = none ↔ ∀ call ∈ calls, call.footnote? ≠ some footnote
  /-- The registry has the first call that was given a number at the place of this number. -/
  first : ∀ (place : Nat) (call : Node), notes.referenceAt? place = some call ↔
    ∃ i : Nat, calls[i]? = some call ∧ answers[i]? = some (some (place + 1)) ∧
      ∀ j < i, answers[j]? ≠ some (some (place + 1))
  /-- A call for another node is answered by nothing and changes nothing. -/
  other : ∀ node, node.kind.isFootnoteReference = false → notes.number node = (none, notes)
  /-- A ledger gives the same answers, and its table and its list of references stay together. -/
  ledger : ∃ ledger : Ledger, callAll Ledger.number calls {} = (answers, ledger) ∧
    ledger.Agrees notes

theorem answered_callAll (root : Node) (calls : List Node)
    (h : ∀ call ∈ calls, call ∈ root.prepare.walk) :
    Answered calls (callAll Footnotes.number calls {}).1 (callAll Footnotes.number calls {}).2 := by
  have hof : Of root.prepare (meetAll {} calls) := of_meetAll h (of_empty _)
  rw [lastNumbers_eq, callAll_snd]
  constructor
  case length => exact List.length_map _
  case given => exact fun number => mem_lastNumbers_iff hof
  case same =>
    intro i j first second hi hj hreference hother
    rw [lastNumbers_eq_iff hi hj hreference hother]
    exact Node.footnote?_eq_iff_shares (h first (List.mem_of_getElem? hi))
      (h second (List.mem_of_getElem? hj)) hreference hother
  case kept =>
    rintro before after rfl
    obtain ⟨hanswers, hnotes⟩ := callAll_isPrefix before after
    exact ⟨hanswers, hnotes, fun footnote number => get?_mono hnotes⟩
  case get =>
    intro i call footnote hi hf
    obtain ⟨number, hn⟩ := get?_meetAll_of_mem (List.mem_of_getElem? hi) hf
    exact ⟨number, (getElem?_lastNumbers_iff hn).mpr ⟨call, hi, hf⟩, hn⟩
  case known => exact fun reference footnote number hf hn => number_of_get? hf hn
  case unknown =>
    intro footnote
    rw [← Option.not_isSome_iff_eq_none, get?_meetAll_isSome_iff]
    simp [get?]
  case first => exact fun place call => referenceAt?_meetAll_iff hof
  case other =>
    intro node hnode
    refine number_of_other (Option.eq_none_iff_forall_not_mem.mpr fun footnote hf => ?_)
    rw [Node.isFootnoteReference_iff.mpr ⟨footnote, hf⟩] at hnode
    cases hnode
  case ledger =>
    obtain ⟨hanswers, hagrees⟩ := Ledger.agrees_empty.callAll calls
    rw [lastNumbers_eq] at hanswers
    rw [callAll_snd] at hagrees
    exact ⟨_, Prod.ext hanswers rfl, hagrees⟩

section

open Node (document paragraph ofValue ofKind footnoteReference)

theorem answered_callAll_interleaved :
    let root := document [paragraph [footnoteReference "a", ofKind (.footnoteReference none) [],
      ofValue " and", footnoteReference "b", ofKind (.footnoteReference none) [],
      footnoteReference "a"]]
    let calls := root.prepare.walk ++ root.prepare.walk.reverse
    let run := callAll Footnotes.number calls {}
    (∀ call ∈ calls, call ∈ root.prepare.walk) ∧
      run.1 = [none, none, some 1, some 2, none, some 3, some 4, some 1,
        some 1, some 4, some 3, none, some 2, some 1, none, none] ∧
      Answered calls run.1 run.2 := by
  intro root calls run
  have h : ∀ call ∈ calls, call ∈ root.prepare.walk := fun call hcall =>
    (List.mem_append.mp hcall).elim id List.mem_reverse.mp
  exact ⟨h, by decide +kernel, answered_callAll root calls h⟩

end

end Footnotes
end OutlineWiki
