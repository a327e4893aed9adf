import Mathlib.Logic.Relation
import OutlineWiki.Proofs.Json.Order
import OutlineWiki.Proofs.Json.Source

/-!
Every whole text is spelled by a source, and the entries of a source can be put in order.

The first part takes a text apart in the way in which it is read. The second says what it
is to put the entries of objects in another order, on the text with all its space.
-/

namespace OutlineWiki

open Scan (isSpace skipSpace readValue readItems readEntries readString)

namespace Source

/-- What is read as a value with so much fuel is the text of a source. -/
def SpellsValues (fuel : Nat) : Prop :=
  ∀ text scan rest, readValue fuel text = (scan, some rest) →
    ∃ source : Source, text = source.text ++ skipSpace rest ∧ source.scan = scan

def SpellsItems (fuel : Nat) : Prop :=
  ∀ text scans rest, readItems fuel text = (scans, some rest) →
    ∃ items : List Source, items ≠ [] ∧ text = enclosed ']' (itemTexts items) ++ rest ∧
      itemScans items = scans

def SpellsEntries (fuel : Nat) : Prop :=
  ∀ text scans rest, readEntries fuel (skipSpace text) = (scans, some rest) →
    ∃ entries : List (Label × Source), entries ≠ [] ∧
      text = enclosed '\x7d' (entryTexts entries) ++ rest ∧ entryScans entries = scans

variable {fuel : Nat}

theorem spellsItems_succ (hv : SpellsValues fuel) (hi : SpellsItems fuel) :
    SpellsItems (fuel + 1) := by
  intro text scans rest h
  rw [readItems] at h
  cases hread : readValue fuel text with
  | mk scan left =>
      rw [hread] at h
      cases left with
      | none => cases h
      | some left =>
          obtain ⟨source, htext, hscan⟩ := hv text scan left hread
          simp only [Option.map_some] at h
          split at h
          · next heq =>
              cases h
              rw [Option.some.inj heq] at htext
              refine ⟨[source], by simp, ?_, ?_⟩
              · simpa [itemTexts, enclosed] using htext
              · simp [itemScans, hscan]
          · next more heq =>
              rw [Option.some.inj heq] at htext
              split at h
              · cases h
              · rw [readItems_congr (skipSpace_skipSpace more)] at h
                cases hmore : readItems fuel more with
                | mk others left =>
                    rw [hmore] at h
                    cases h
                    obtain ⟨items, hne, hitems, hscans⟩ := hi _ _ _ hmore
                    have htexts : itemTexts items ≠ [] := by
                      simpa [itemTexts_eq_map] using hne
                    refine ⟨source :: items, by simp, ?_, ?_⟩
                    · rw [htext, hitems, itemTexts, enclosed_cons _ _ htexts]
                      simp
                    · rw [itemScans, hscan, hscans]
          · cases h

/-- A key is spelled by the label that its text and the space around it make. -/
theorem exists_label {text quoted more : List Char} {key : Option String} {left : List Char}
    (htext : skipSpace text = '"' :: quoted) (hkey : readString quoted = some (key, left))
    (hcolon : skipSpace left = ':' :: more) :
    ∃ label : Label, text = label.text ++ more ∧ label.key = key := by
  obtain ⟨body, rfl, hreads⟩ := Scan.readString_append hkey
  refine ⟨⟨.ofText text, body, key, .ofText left, hreads⟩, ?_, rfl⟩
  rw [Label.text]
  have hleft := Space.ofText_append left
  rw [hcolon] at hleft
  calc
    text = (Space.ofText text).text ++ '"' :: (body ++ left) := by
      rw [← htext, Space.ofText_append]
    _ = (Space.ofText text).text ++ '"' :: (body ++ ((Space.ofText left).text ++ ':' :: more)) := by
      rw [hleft]
    _ = _ := by
      simp

theorem exists_entry {text : List Char} {scans : List (Option String × Scan)} {rest : List Char}
    (h : readEntries (fuel + 1) (skipSpace text) = (scans, some rest)) :
    ∃ (label : Label) (more : List Char) (scan : Scan) (left : List Char),
      text = label.text ++ more ∧ readValue fuel more = (scan, some left) := by
  simp only [readEntries] at h
  split at h
  · next quoted hquoted =>
      split at h
      · cases h
      · next key hkey =>
          split at h
          · next more hcolon =>
              obtain ⟨label, hlabel, _⟩ := exists_label hquoted hkey hcolon
              cases hread : readValue fuel more with
              | mk scan left =>
                  rw [hread] at h
                  cases left with
                  | none => cases h
                  | some left => exact ⟨label, more, scan, left, hlabel, hread⟩
          · cases h
  · cases h

theorem spellsEntries_succ (hv : SpellsValues fuel) (he : SpellsEntries fuel) :
    SpellsEntries (fuel + 1) := by
  intro text scans rest h
  obtain ⟨label, more, scan, left, rfl, hread⟩ := exists_entry h
  obtain ⟨source, rfl, rfl⟩ := hv _ _ _ hread
  rw [readEntries_label label hread] at h
  split at h
  · next last hleft =>
      cases h
      refine ⟨[(label, source)], by simp, ?_, rfl⟩
      rw [hleft]
      simp [entryTexts, enclosed]
  · next others hleft =>
      cases hmore : readEntries fuel (skipSpace others) with
      | mk entryList last =>
          rw [hmore] at h
          cases h
          obtain ⟨entries, hne, hentries, rfl⟩ := he _ _ _ hmore
          have htexts : entryTexts entries ≠ [] := by
            simpa [entryTexts_eq_map] using hne
          refine ⟨(label, source) :: entries, by simp, ?_, rfl⟩
          rw [hleft, hentries, entryTexts, enclosed_cons _ _ htexts]
          simp
  · cases h

/-- A text is its space and what follows. -/
theorem eq_space_append {text more : List Char} (h : skipSpace text = more) :
    text = (Space.ofText text).text ++ more := by
  rw [← h, Space.ofText_append]

/-- A text from its bracket on, with the space around. -/
theorem eq_bracket_append {c : Char} {text parts rest : List Char}
    (h : skipSpace text = c :: (parts ++ rest)) :
    text = (Space.ofText text).text ++ c :: parts ++ (Space.ofText rest).text ++
      skipSpace rest := by
  rw [List.append_assoc _ _ (skipSpace rest), Space.ofText_append, List.append_assoc,
    List.cons_append]
  exact eq_space_append h

/-- A value is spelled by a source, with the space before and after it. -/
theorem spellsValues_succ (hi : SpellsItems fuel) (he : SpellsEntries fuel) :
    SpellsValues (fuel + 1) := by
  intro text scan rest h
  have hscalar : ∀ start, skipSpace text = start → (∃ token : Token,
      start = token.text ++ rest ∧ token.value = scan) →
      ∃ source : Source, text = source.text ++ skipSpace rest ∧ source.scan = scan := by
    rintro start hstart ⟨token, rfl, rfl⟩
    refine ⟨.scalar (.ofText text) token (.ofText rest), ?_, rfl⟩
    rw [Source.text, List.append_assoc, Space.ofText_append, List.append_assoc, ← hstart,
      Space.ofText_append]
  rw [readValue] at h
  split at h
  · cases h
  · next quoted heq =>
      split at h
      · cases h
      · next read hread =>
          cases h
          exact hscalar _ heq (Token.exists_string hread)
  · next inside heq =>
      split at h
      · next last hclose =>
          cases h
          rw [eq_space_append hclose, List.append_cons] at heq
          refine ⟨.array (.ofText text) (.ofText inside) [] (.ofText rest), ?_, rfl⟩
          simpa [Source.text, itemTexts, enclosed] using eq_bracket_append heq
      · cases hread : readItems fuel (skipSpace inside) with
        | mk scans left =>
            rw [hread] at h
            cases h
            rw [readItems_congr (skipSpace_skipSpace inside)] at hread
            obtain ⟨items, hne, rfl, rfl⟩ := hi _ _ _ hread
            refine ⟨.array (.ofText text) .empty items (.ofText rest), ?_, rfl⟩
            simpa [Source.text, Space.empty] using eq_bracket_append heq
  · next inside heq =>
      split at h
      · next last hclose =>
          cases h
          rw [eq_space_append hclose, List.append_cons] at heq
          refine ⟨.object (.ofText text) (.ofText inside) [] (.ofText rest), ?_, rfl⟩
          simpa [Source.text, entryTexts, enclosed] using eq_bracket_append heq
      · cases hread : readEntries fuel (skipSpace inside) with
        | mk scans left =>
            rw [hread] at h
            cases h
            obtain ⟨entries, hne, rfl, rfl⟩ := he _ _ _ hread
            refine ⟨.object (.ofText text) .empty entries (.ofText rest), ?_, rfl⟩
            simpa [Source.text, Space.empty] using eq_bracket_append heq
  · next more heq => exact hscalar _ heq (Token.exists_word (fun _ _ => rfl) rfl h)
  · next more heq => exact hscalar _ heq (Token.exists_word (fun _ _ => rfl) rfl h)
  · next more heq => exact hscalar _ heq (Token.exists_word (fun _ _ => rfl) rfl h)
  · split at h
    · cases h
    · next read hread =>
        cases h
        exact hscalar _ rfl (Token.exists_number hread)

theorem spells (fuel : Nat) : SpellsValues fuel ∧ SpellsItems fuel ∧ SpellsEntries fuel := by
  induction fuel with
  | zero => refine ⟨?_, ?_, ?_⟩ <;> (intro text scan rest h; cases h)
  | succ fuel ih =>
      obtain ⟨hv, hi, he⟩ := ih
      exact ⟨spellsValues_succ hi he, spellsItems_succ hv hi, spellsEntries_succ hv he⟩

/-- A text that is one whole value is the text of a source that spells the value. -/
theorem exists_of_ofText {text : List Char} {value : Scan} (h : Scan.ofText text = (value, true)) :
    ∃ source : Source, source.text = text ∧ source.scan = value := by
  rw [Scan.ofText] at h
  cases hread : readValue (2 * text.length + 2) text with
  | mk scan left =>
      rw [hread] at h
      obtain ⟨rfl, hend⟩ := Prod.mk.inj h
      cases left with
      | none => cases hend
      | some left =>
          obtain ⟨source, htext, hscan⟩ := (spells _).1 _ _ _ hread
          have hnil : skipSpace left = [] := by simpa using hend
          rw [hnil, List.append_nil] at htext
          exact ⟨source, htext.symm, hscan⟩

/-- The entries of one object in the source are put in another order. -/
inductive Swaps : Source → Source → Prop where
  | entries {before inner after : Space} {entries others : List (Label × Source)}
      (perm : entries.Perm others) :
      Swaps (.object before inner entries after) (.object before inner others after)
  | item {before inner after : Space} {first last : List Source} {item other : Source}
      (step : Swaps item other) :
      Swaps (.array before inner (first ++ item :: last) after)
        (.array before inner (first ++ other :: last) after)
  | value {before inner after : Space} {first last : List (Label × Source)} {label : Label}
      {value other : Source} (step : Swaps value other) :
      Swaps (.object before inner (first ++ (label, value) :: last) after)
        (.object before inner (first ++ (label, other) :: last) after)

/-- The entries of any objects in the source are put in any other order. -/
def Reorders : Source → Source → Prop :=
  Relation.ReflTransGen Swaps

theorem Swaps.reordering {source other : Source} (h : Swaps source other) :
    Scan.Reordering source.scan other.scan := by
  induction h with
  | entries perm =>
      simp only [scan, entryScans_eq_map]
      exact .entries (perm.map _)
  | item step ih =>
      simp only [scan, itemScans_eq_map, List.map_append, List.map_cons]
      exact .item ih
  | value step ih =>
      simp only [scan, entryScans_eq_map, List.map_append, List.map_cons]
      exact .value ih

/-- A steady reader gives the same for all orders of entries. -/
theorem Reorders.read_eq {α : Type} {read : Scan → Decoded α} (hr : Scan.Steady read)
    {source other : Source} (h : Reorders source other) {value : α}
    (hv : read source.scan = .ok value) : read other.scan = .ok value := by
  induction h with
  | refl => exact hv
  | tail _ step ih => exact hr _ _ _ step.reordering ih

end Source
end OutlineWiki
