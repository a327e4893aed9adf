import Mathlib.Data.List.DropRight
import OutlineWiki.Proofs.Json.Token

/-!
Texts with their structure.

A source is a text of one value that is taken apart down to its tokens, with all the space
between them. Its text is scanned as the value that it spells, and every text that holds
one whole value is the text of a source.
-/

namespace OutlineWiki

open Scan (isSpace skipSpace readValue readItems readEntries readString)

/-- Space between the parts of a text. -/
structure Space where
  text : List Char
  isBlank : ∀ c ∈ text, isSpace c = true

theorem skipSpace_append (space : Space) (text : List Char) :
    skipSpace (space.text ++ text) = skipSpace text :=
  List.dropWhile_append_of_pos space.isBlank

theorem skipSpace_skipSpace (text : List Char) : skipSpace (skipSpace text) = skipSpace text :=
  List.dropWhile_idempotent isSpace text

/-- A value is read in the same way after more space. -/
theorem readValue_congr {text other : List Char} (h : skipSpace text = skipSpace other)
    (fuel : Nat) : readValue fuel text = readValue fuel other := by
  cases fuel with
  | zero => rfl
  | succ fuel => rw [readValue, readValue, h]

theorem readItems_congr {text other : List Char} (h : skipSpace text = skipSpace other)
    (fuel : Nat) : readItems fuel text = readItems fuel other := by
  cases fuel with
  | zero => rfl
  | succ fuel => rw [readItems, readItems, readValue_congr h]

def Space.empty : Space :=
  ⟨[], List.forall_mem_nil _⟩

/-- The space at the start of a text. -/
def Space.ofText (text : List Char) : Space :=
  ⟨text.takeWhile isSpace, fun _ h => List.mem_takeWhile_imp h⟩

theorem Space.ofText_append (text : List Char) : (ofText text).text ++ skipSpace text = text :=
  List.takeWhile_append_dropWhile

/-- A key of an object with the colon after it. -/
structure Label where
  before : Space
  /-- The text from the opening quote, which is left out, to the closing one. -/
  quoted : List Char
  key : Option String
  after : Space
  reads : ∀ rest, readString (quoted ++ rest) = some (key, rest)

def Label.text (label : Label) : List Char :=
  label.before.text ++ '"' :: label.quoted ++ label.after.text ++ [':']

inductive Source where
  | scalar (before : Space) (token : Token) (after : Space)
  | array (before inner : Space) (items : List Source) (after : Space)
  | object (before inner : Space) (entries : List (Label × Source)) (after : Space)

namespace Source

/-- Parts with commas between them, and the bracket that closes them. -/
def enclosed (close : Char) : List (List Char) → List Char
  | [] => [close]
  | [part] => part ++ [close]
  | part :: parts => part ++ ',' :: enclosed close parts

mutual

def text : Source → List Char
  | scalar before token after => before.text ++ token.text ++ after.text
  | array before inner items after =>
    before.text ++ '[' :: inner.text ++ enclosed ']' (itemTexts items) ++ after.text
  | object before inner entries after =>
    before.text ++ '\x7b' :: inner.text ++ enclosed '\x7d' (entryTexts entries) ++ after.text

def itemTexts : List Source → List (List Char)
  | [] => []
  | item :: items => text item :: itemTexts items

def entryTexts : List (Label × Source) → List (List Char)
  | [] => []
  | (label, value) :: entries => (label.text ++ text value) :: entryTexts entries

end

mutual

/-- The value that a source spells. -/
def scan : Source → Scan
  | scalar _ token _ => token.value
  | array _ _ items _ => .array (itemScans items) true
  | object _ _ entries _ => .object (entryScans entries) true

def itemScans : List Source → List Scan
  | [] => []
  | item :: items => scan item :: itemScans items

def entryScans : List (Label × Source) → List (Option String × Scan)
  | [] => []
  | (label, value) :: entries => (label.key, scan value) :: entryScans entries

end

theorem itemTexts_eq_map (items : List Source) : itemTexts items = items.map text := by
  induction items with
  | nil => rfl
  | cons item items ih => rw [itemTexts, ih, List.map_cons]

theorem entryTexts_eq_map (entries : List (Label × Source)) :
    entryTexts entries = entries.map fun entry => entry.1.text ++ entry.2.text := by
  induction entries with
  | nil => rfl
  | cons entry entries ih => rw [entryTexts, ih, List.map_cons]

theorem itemScans_eq_map (items : List Source) : itemScans items = items.map scan := by
  induction items with
  | nil => rfl
  | cons item items ih => rw [itemScans, ih, List.map_cons]

theorem entryScans_eq_map (entries : List (Label × Source)) :
    entryScans entries = entries.map fun entry => (entry.1.key, entry.2.scan) := by
  induction entries with
  | nil => rfl
  | cons entry entries ih => rw [entryScans, ih, List.map_cons]

/-- What holds of a source whenever it holds of all values inside holds of every source. -/
theorem part_induction {P : Source → Prop}
    (scalar : ∀ before token after, P (.scalar before token after))
    (array : ∀ before inner items after, (∀ item ∈ items, P item) →
      P (.array before inner items after))
    (object : ∀ before inner entries after, (∀ entry ∈ entries, P entry.2) →
      P (.object before inner entries after)) :
    ∀ source, P source
  | .scalar before token after => scalar before token after
  | .array before inner items after =>
      array before inner items after fun item _ => part_induction scalar array object item
  | .object before inner entries after =>
      object before inner entries after fun entry _ =>
        part_induction scalar array object entry.2
termination_by source => sizeOf source
decreasing_by
  · have hitem := List.sizeOf_lt_of_mem ‹_›
    simp only [Source.array.sizeOf_spec]
    omega
  · have hentry := List.sizeOf_lt_of_mem ‹_›
    have hvalue : sizeOf entry.2 < sizeOf entry := by
      obtain ⟨label, value⟩ := entry
      simp only [Prod.mk.sizeOf_spec]
      omega
    simp only [Source.object.sizeOf_spec]
    omega

/-- Before a delimiter, the value that the source spells is read, and space after it is left. -/
def Reads (source : Source) : Prop :=
  ∀ fuel rest, 2 * source.text.length ≤ fuel → Delimited rest →
    ∃ left, readValue fuel (source.text ++ rest) = (source.scan, some left) ∧
      skipSpace left = skipSpace rest

/-- No value starts with a closing bracket. -/
theorem Reads.not_close {source : Source} (h : source.Reads) {rest : List Char}
    (hr : Delimited rest) (c : Char) (hc : c = ']' ∨ c = '\x7d') (more : List Char) :
    skipSpace (source.text ++ rest) ≠ c :: more := by
  intro hskip
  obtain ⟨left, hread, _⟩ := h (2 * source.text.length + 1) rest (by omega) hr
  rw [readValue, hskip] at hread
  have hnone := congrArg Prod.snd hread
  obtain rfl | rfl := hc <;> cases hnone

theorem enclosed_cons {parts : List (List Char)} (close : Char) (part : List Char)
    (h : parts ≠ []) : enclosed close (part :: parts) = part ++ ',' :: enclosed close parts := by
  rw [enclosed]
  exact h

theorem enclosed_append (close : Char) (first last : List Char) (parts : List (List Char)) :
    ∃ more, enclosed close ((first ++ last) :: parts) = first ++ more := by
  cases parts with
  | nil => exact ⟨last ++ [close], List.append_assoc _ _ _⟩
  | cons part parts =>
      exact ⟨last ++ ',' :: enclosed close (part :: parts), List.append_assoc _ _ _⟩

theorem enclosed_not_close {items : List Source} (hi : ∀ item ∈ items, item.Reads)
    (hne : items ≠ []) (rest more : List Char) :
    skipSpace (enclosed ']' (items.map text) ++ rest) ≠ ']' :: more := by
  obtain ⟨item, items, rfl⟩ := List.exists_cons_of_ne_nil hne
  have hitem := hi item List.mem_cons_self
  rw [List.map_cons]
  by_cases hlast : items.map text = []
  · rw [hlast, enclosed, List.append_assoc]
    exact hitem.not_close (delimited_cons (by simp) rest) ']' (by simp) more
  · rw [enclosed_cons _ _ hlast, List.append_assoc]
    exact hitem.not_close (delimited_cons (by simp) _) ']' (by simp) more

theorem readItems_enclosed {items : List Source} (hi : ∀ item ∈ items, item.Reads)
    (hne : items ≠ []) (fuel : Nat) (rest : List Char)
    (hf : 2 * (enclosed ']' (items.map text)).length + 1 ≤ fuel) :
    readItems fuel (enclosed ']' (items.map text) ++ rest) = (items.map scan, some rest) := by
  induction items generalizing fuel with
  | nil => exact absurd rfl hne
  | cons item items ih =>
      obtain ⟨hitem, hitems⟩ := List.forall_mem_cons.mp hi
      obtain ⟨fuel, rfl⟩ : ∃ less, fuel = less + 1 := ⟨fuel - 1, by omega⟩
      rw [List.map_cons, List.map_cons] at *
      by_cases hlast : items = []
      · subst hlast
        rw [List.map_nil, enclosed, List.length_append, List.length_singleton] at hf
        obtain ⟨left, hread, hleft⟩ := hitem fuel (']' :: rest) (by omega)
          (delimited_cons (by simp) rest)
        rw [List.map_nil, enclosed, List.append_assoc, List.singleton_append, readItems, hread]
        simp only [Option.map_some, hleft, skipSpace_cons (c := ']') rfl]
        rfl
      · have hmore : items.map text ≠ [] := by simpa using hlast
        rw [enclosed_cons _ _ hmore, List.length_append, List.length_cons] at hf
        obtain ⟨left, hread, hleft⟩ := hitem fuel
          (',' :: (enclosed ']' (items.map text) ++ rest)) (by omega)
          (delimited_cons (by simp) _)
        rw [enclosed_cons _ _ hmore, List.append_assoc, List.cons_append, readItems, hread]
        simp only [Option.map_some, hleft, skipSpace_cons (c := ',') rfl]
        split
        · next hclose => exact absurd hclose (enclosed_not_close hitems hlast rest _)
        · rw [readItems_congr (skipSpace_skipSpace _), ih hitems hlast fuel (by omega)]

theorem delimited_append (space : Space) {rest : List Char} (h : Delimited rest) :
    Delimited (space.text ++ rest) := by
  obtain ⟨_ | ⟨c, text⟩, hblank⟩ := space
  · exact h
  · intro d hd
    cases hd
    exact .inl (hblank c List.mem_cons_self)

theorem reads_scalar (before : Space) (token : Token) (after : Space) :
    (scalar before token after).Reads := by
  intro fuel rest hf hr
  have hpos : token.text ≠ [] := by
    intro hnil
    have hread := congrArg Prod.snd (token.reads 0 [] delimited_nil)
    rw [hnil] at hread
    cases hread
  have hlength := List.length_pos_iff.mpr hpos
  rw [text, List.length_append, List.length_append] at hf
  obtain ⟨fuel, rfl⟩ : ∃ less, fuel = less + 1 := ⟨fuel - 1, by omega⟩
  refine ⟨after.text ++ rest, ?_, skipSpace_append after rest⟩
  rw [text, List.append_assoc, List.append_assoc, readValue_congr (skipSpace_append before _)]
  exact token.reads fuel _ (delimited_append after hr)

theorem reads_array (before inner : Space) {items : List Source} (after : Space)
    (hi : ∀ item ∈ items, item.Reads) : (array before inner items after).Reads := by
  intro fuel rest hf hr
  have htext : (array before inner items after).text ++ rest = before.text ++
      '[' :: (inner.text ++ (enclosed ']' (items.map text) ++ (after.text ++ rest))) := by
    simp [text, itemTexts_eq_map]
  have hlength : 2 * (enclosed ']' (items.map text)).length + 2 ≤ fuel := by
    simp only [text, itemTexts_eq_map, List.length_append, List.length_cons] at hf
    omega
  obtain ⟨fuel, rfl⟩ : ∃ less, fuel = less + 1 := ⟨fuel - 1, by omega⟩
  refine ⟨after.text ++ rest, ?_, skipSpace_append after rest⟩
  rw [htext, readValue_congr (skipSpace_append before _), readValue, skipSpace_cons rfl, scan,
    itemScans_eq_map]
  simp only [skipSpace_append inner]
  by_cases hnil : items = []
  · subst hnil
    rw [List.map_nil, List.map_nil, enclosed, List.singleton_append, skipSpace_cons rfl]
    rfl
  · split
    · next hclose => exact absurd hclose (enclosed_not_close hi hnil _ _)
    · rw [readItems_congr (skipSpace_skipSpace _), readItems_enclosed hi hnil fuel _ (by omega)]
      rfl

theorem skipSpace_label (label : Label) (text : List Char) :
    skipSpace (label.text ++ text) =
      '"' :: (label.quoted ++ (label.after.text ++ ':' :: text)) := by
  simp only [Label.text, List.append_assoc, List.cons_append, skipSpace_append, List.nil_append]
  exact skipSpace_cons rfl _

/-- What is read from the quote of a key on, when the value has been read. -/
theorem readEntries_label (label : Label) {fuel : Nat} {text left : List Char} {value : Scan}
    (h : readValue fuel text = (value, some left)) :
    readEntries (fuel + 1) (skipSpace (label.text ++ text)) =
      match skipSpace left with
      | '\x7d' :: rest => ([(label.key, value)], some rest)
      | ',' :: rest =>
        let entries := readEntries fuel (skipSpace rest)
        ((label.key, value) :: entries.1, entries.2)
      | _ => ([(label.key, value)], none) := by
  rw [skipSpace_label, readEntries, label.reads]
  simp only [skipSpace_append, skipSpace_cons (c := ':') rfl, h, Option.map_some]
  generalize skipSpace left = more
  split
  · next heq =>
      cases heq
      rfl
  · next heq =>
      cases heq
      rfl
  · next hclose hcomma =>
      split
      · exact (hclose _ rfl).elim
      · exact (hcomma _ rfl).elim
      · rfl

theorem readEntries_enclosed {entries : List (Label × Source)}
    (hi : ∀ entry ∈ entries, entry.2.Reads) (hne : entries ≠ []) (fuel : Nat) (rest : List Char)
    (hf : 2 * (enclosed '\x7d' (entryTexts entries)).length + 1 ≤ fuel) :
    readEntries fuel (skipSpace (enclosed '\x7d' (entryTexts entries) ++ rest)) =
      (entryScans entries, some rest) := by
  induction entries generalizing fuel with
  | nil => exact absurd rfl hne
  | cons entry entries ih =>
      obtain ⟨hvalue, hentries⟩ := List.forall_mem_cons.mp hi
      obtain ⟨label, value⟩ := entry
      change value.Reads at hvalue
      obtain ⟨fuel, rfl⟩ : ∃ less, fuel = less + 1 := ⟨fuel - 1, by omega⟩
      by_cases hlast : entries = []
      · subst hlast
        simp only [entryTexts, enclosed, List.length_append] at hf
        obtain ⟨left, hread, hleft⟩ := hvalue fuel ('\x7d' :: rest) (by omega)
          (delimited_cons (by simp) rest)
        have htext : enclosed '\x7d' (entryTexts [(label, value)]) ++ rest =
            label.text ++ (value.text ++ '\x7d' :: rest) := by
          simp [entryTexts, enclosed]
        rw [htext, readEntries_label label hread, hleft, skipSpace_cons rfl]
        rfl
      · have hmore : entryTexts entries ≠ [] := by
          simpa [entryTexts_eq_map] using hlast
        rw [entryTexts, enclosed_cons _ _ hmore] at hf ⊢
        rw [List.length_append, List.length_append, List.length_cons] at hf
        obtain ⟨left, hread, hleft⟩ := hvalue fuel
          (',' :: (enclosed '\x7d' (entryTexts entries) ++ rest)) (by omega)
          (delimited_cons (by simp) _)
        rw [List.append_assoc, List.append_assoc, List.cons_append, readEntries_label label hread,
          hleft, skipSpace_cons rfl]
        simp only [ih hentries hlast fuel (by omega), entryScans]

theorem reads_object (before inner : Space) {entries : List (Label × Source)} (after : Space)
    (hi : ∀ entry ∈ entries, entry.2.Reads) : (object before inner entries after).Reads := by
  intro fuel rest hf hr
  have htext : (object before inner entries after).text ++ rest = before.text ++
      '\x7b' :: (inner.text ++ (enclosed '\x7d' (entryTexts entries) ++ (after.text ++ rest))) := by
    simp [text]
  have hlength : 2 * (enclosed '\x7d' (entryTexts entries)).length + 2 ≤ fuel := by
    simp only [text, List.length_append, List.length_cons] at hf
    omega
  obtain ⟨fuel, rfl⟩ : ∃ less, fuel = less + 1 := ⟨fuel - 1, by omega⟩
  refine ⟨after.text ++ rest, ?_, skipSpace_append after rest⟩
  rw [htext, readValue_congr (skipSpace_append before _), readValue, skipSpace_cons rfl, scan]
  simp only [skipSpace_append inner]
  cases entries with
  | nil =>
      rw [entryTexts, enclosed, List.singleton_append, skipSpace_cons rfl]
      rfl
  | cons entry entries =>
      obtain ⟨label, value⟩ := entry
      have hread := readEntries_enclosed hi (by simp) fuel (after.text ++ rest) (by omega)
      obtain ⟨more, hmore⟩ : ∃ more, enclosed '\x7d' (entryTexts ((label, value) :: entries)) =
          label.text ++ more := enclosed_append _ _ _ _
      rw [hmore, List.append_assoc, skipSpace_label] at hread ⊢
      exact congrArg (fun read => (Scan.object read.1 read.2.isSome, read.2)) hread

/-- The text of a source is scanned as the value that the source spells. -/
theorem reads (source : Source) : source.Reads :=
  part_induction reads_scalar (fun before inner _ after => reads_array before inner after)
    (fun before inner _ after => reads_object before inner after) source

theorem ofText_text (source : Source) : Scan.ofText source.text = (source.scan, true) := by
  obtain ⟨left, hread, hleft⟩ :=
    source.reads (2 * source.text.length + 2) [] (by omega) delimited_nil
  rw [List.append_nil] at hread
  simp only [Scan.ofText, hread, Option.any_some, hleft]
  rfl

end Source

end OutlineWiki
