import OutlineWiki.Json.Basic
import OutlineWiki.Proofs.Json.Source

/-!
Scanning what was written.

The text of a value is scanned as the value again. Strings come back character by character,
as every character is written either as such or as one escape that stands for it. Numbers come
back as long as they fit a word of 64 bits.
-/

namespace OutlineWiki

namespace Numeral

/-- The numeral of a natural number in base 10. -/
def ofNat (n : Nat) : Numeral where
  isNegative := false
  whole := (Nat.toDigits 10 n).map fun c => c.toNat - 48

theorem toDigits_of_pos {n : Nat} (h : 0 < n) :
    ∃ digit more, Nat.toDigits 10 n = Nat.digitChar digit :: more ∧ 0 < digit ∧ digit < 10 := by
  induction n using Nat.strongRecOn with
  | ind n ih =>
      by_cases hsmall : n < 10
      · exact ⟨n, [], Nat.toDigits_of_lt_base hsmall, h, hsmall⟩
      · obtain ⟨digit, more, hdigits, hrange⟩ := ih (n / 10) (by omega) (by omega)
        refine ⟨digit, more ++ [Nat.digitChar (n % 10)], ?_, hrange⟩
        rw [Nat.toDigits_of_base_le (by decide) (by omega), hdigits, List.cons_append]

theorem takeDigits_toDigits (n : Nat) :
    takeDigits (Nat.toDigits 10 n) = (ofNat n).whole ∧ dropDigits (Nat.toDigits 10 n) = [] := by
  have hall : ∀ c ∈ Nat.toDigits 10 n, c.isDigit = true :=
    fun c hc => Nat.isDigit_of_mem_toDigits (by decide) (by decide) hc
  rw [takeDigits, dropDigits, List.takeWhile_eq_self_iff.mpr hall,
    List.dropWhile_eq_nil_iff.mpr hall]
  exact ⟨rfl, rfl⟩

theorem whole_ofNat_ne_zero_cons (n digit : Nat) (more : List Nat) :
    (ofNat n).whole ≠ 0 :: digit :: more := by
  rcases Nat.eq_zero_or_pos n with rfl | hpos
  · simp [ofNat]
  · obtain ⟨first, rest, hdigits, hfirst, hsmall⟩ := toDigits_of_pos hpos
    have hvalue := Nat.toNat_digitChar_sub_48_of_lt_ten hsmall
    simp only [ofNat, hdigits, List.map_cons, hvalue]
    intro heq
    have hzero := (List.cons.inj heq).1
    omega

theorem read_toDigits (n : Nat) : read (Nat.toDigits 10 n) = some (ofNat n, []) := by
  obtain ⟨htake, hdrop⟩ := takeDigits_toDigits n
  have hunsigned : readUnsigned false (Nat.toDigits 10 n) = some (ofNat n, []) := by
    rw [readUnsigned_eq_some_iff, htake, hdrop]
    refine ⟨?_, whole_ofNat_ne_zero_cons n, [], [], none, rfl, rfl, rfl⟩
    simp [ofNat]
  have hsign : ∀ rest, Nat.toDigits 10 n ≠ '-' :: rest := by
    intro rest heq
    have hdigit : '-'.isDigit = true :=
      Nat.isDigit_of_mem_toDigits (by decide) (by decide) (heq ▸ List.mem_cons_self)
    cases hdigit
  rw [read]
  · exact hunsigned
  · exact hsign

theorem le_ofDigitChars (digits : List Char) (start : Nat) :
    start ≤ Nat.ofDigitChars 10 digits start := by
  induction digits generalizing start with
  | nil => exact Nat.le_refl start
  | cons c digits ih =>
      have hrest := ih (10 * start + (c.toNat - '0'.toNat))
      rw [Nat.ofDigitChars_cons]
      omega

theorem takeWhole_eq_ofDigitChars {digits : List Char} {start : Nat}
    (h : Nat.ofDigitChars 10 digits start ≤ wordLimit) :
    takeWhole start (digits.map fun c => c.toNat - 48) =
      (Nat.ofDigitChars 10 digits start, 0) := by
  induction digits generalizing start with
  | nil => rfl
  | cons c digits ih =>
      have hstep : start * 10 + (c.toNat - 48) = 10 * start + (c.toNat - '0'.toNat) :=
        congrArg (· + (c.toNat - 48)) (Nat.mul_comm start 10)
      rw [Nat.ofDigitChars_cons] at h ⊢
      have hfits := Nat.le_trans (le_ofDigitChars digits _) h
      rw [List.map_cons, takeWhole, hstep, if_pos hfits, ih h]

/-- A number that fits a word is read as the same number. -/
theorem amount_ofNat {n : Nat} (h : n ≤ wordLimit) : (ofNat n).amount = .natural n := by
  have hvalue : Nat.ofDigitChars 10 (Nat.toDigits 10 n) 0 = n :=
    Nat.ofDigitChars_toDigits (by decide) (by decide)
  have hwhole : takeWhole 0 (ofNat n).whole = (n, 0) := by
    rw [ofNat, takeWhole_eq_ofDigitChars (by rw [hvalue]; exact h), hvalue]
  rw [amount, hwhole]
  rfl

end Numeral

namespace Json

open Scan (Piece readPieces joinPieces readString)

/-- A small unit is no half of a surrogate pair. -/
theorem joinPieces_unit {n : Nat} (h : n < 32) (rest : List Piece) :
    joinPieces (.unit n :: rest) = (joinPieces rest).map (Char.ofNat n :: ·) := by
  have hleading : Scan.isLeading n = false := by
    simp only [Scan.isLeading, Bool.and_eq_false_iff, decide_eq_false_iff_not]
    omega
  have htrailing : Scan.isTrailing n = false := by
    simp only [Scan.isTrailing, Bool.and_eq_false_iff, decide_eq_false_iff_not]
    omega
  match rest with
  | [] | .char _ :: _ | .unit _ :: _ => simp [joinPieces, hleading, htrailing]

theorem hexUnit?_digitChar : ∀ n < 32,
    Scan.hexUnit? '0' '0' (Nat.digitChar (n / 16)) (Nat.digitChar (n % 16)) = some n := by
  decide

/-- The text is read as one piece, and the piece stands for the character. -/
def Writes (text : List Char) (c : Char) : Prop :=
  ∃ piece, (∀ more, readPieces (text ++ more) =
      (readPieces more).map fun read => (piece :: read.1, read.2)) ∧
    ∀ rest, joinPieces (piece :: rest) = (joinPieces rest).map (c :: ·)

theorem writes_short {c escaped : Char} (h : Scan.shortEscape? escaped = some c) :
    Writes ['\\', escaped] c := by
  have hu : escaped ≠ 'u' := by
    rintro rfl
    cases h
  exact ⟨.char c, fun more => by simp [readPieces, hu, h], fun _ => rfl⟩

theorem writes_unit {c : Char} (h : c.toNat < 32) : Writes (unitEscape c.toNat) c := by
  refine ⟨.unit c.toNat, fun more => ?_, fun rest => ?_⟩
  · rw [unitEscape]
    simp only [List.cons_append, List.nil_append, readPieces, hexUnit?_digitChar _ h]
  · rw [joinPieces_unit h, Char.ofNat_toNat]

theorem writes_plain {c : Char} (hquote : c ≠ '"') (hslash : c ≠ '\\') (h : ¬c.toNat < 32) :
    Writes [c] c := by
  refine ⟨.char c, fun more => ?_, fun _ => rfl⟩
  rw [List.singleton_append, readPieces, if_neg (not_or.mpr ⟨hslash, h⟩)]
  · exact hquote
  · exact fun _ _ _ _ _ heq => absurd heq hslash
  · exact fun _ _ heq => absurd heq hslash

theorem writes_escapeChar (c : Char) : Writes (escapeChar c) c := by
  have hcode : ∀ {n}, c.toNat = n → c = Char.ofNat n := fun h => h ▸ (Char.ofNat_toNat c).symm
  rw [escapeChar]
  by_cases hquote : c = '"'
  · rw [if_pos hquote, hquote]
    exact writes_short rfl
  by_cases hslash : c = '\\'
  · rw [if_neg hquote, if_pos hslash, hslash]
    exact writes_short rfl
  rw [if_neg hquote, if_neg hslash]
  split
  · next h => exact writes_short (hcode h ▸ rfl)
  split
  · next h => exact writes_short (h ▸ rfl)
  split
  · next h => exact writes_short (h ▸ rfl)
  split
  · next h => exact writes_short (hcode h ▸ rfl)
  split
  · next h => exact writes_short (h ▸ rfl)
  split
  · next h => exact writes_unit h
  · next h => exact writes_plain hquote hslash h

theorem readString_escaped (value : String) (rest : List Char) :
    readString (value.toList.flatMap escapeChar ++ '"' :: rest) = some (some value, rest) := by
  have hpieces : ∀ text : List Char, ∃ pieces,
      readPieces (text.flatMap escapeChar ++ '"' :: rest) = some (pieces, rest) ∧
        joinPieces pieces = some text := by
    intro text
    induction text with
    | nil => exact ⟨[], rfl, rfl⟩
    | cons c text ih =>
        obtain ⟨pieces, hread, hjoin⟩ := ih
        obtain ⟨piece, hfirst, hstands⟩ := writes_escapeChar c
        refine ⟨piece :: pieces, ?_, ?_⟩
        · rw [List.flatMap_cons, List.append_assoc, hfirst, hread]
          rfl
        · rw [hstands, hjoin]
          rfl
  obtain ⟨pieces, hread, hjoin⟩ := hpieces value.toList
  rw [readString, hread]
  simp only [Option.map_some, hjoin, String.ofList_toList]

mutual

/-- What the text of a value is scanned as. -/
def scan : Json → Scan
  | null => .null
  | bool value => .bool value
  | number value => .number (Numeral.ofNat value).amount
  | string value => .string (some value)
  | array items => .array (itemScans items) true
  | object entries => .object (entryScans entries) true

def itemScans : List Json → List Scan
  | [] => []
  | item :: items => scan item :: itemScans items

def entryScans : List (String × Json) → List (Option String × Scan)
  | [] => []
  | (key, value) :: entries => (some key, scan value) :: entryScans entries

end

theorem itemScans_eq_map (items : List Json) : itemScans items = items.map scan := by
  induction items with
  | nil => rfl
  | cons item items ih => rw [itemScans, ih, List.map_cons]

theorem entryScans_eq_map (entries : List (String × Json)) :
    entryScans entries = entries.map fun entry => (some entry.1, entry.2.scan) := by
  induction entries with
  | nil => rfl
  | cons entry entries ih => rw [entryScans, ih, List.map_cons]

/-- The source spells the value in its compact text. -/
def Spelled (json : Json) (source : Source) : Prop :=
  source.text = json.text ∧ source.scan = json.scan

theorem exists_source_of_token {json : Json} (token : Token) (htext : token.text = json.text)
    (hscan : token.value = json.scan) : ∃ source, json.Spelled source :=
  ⟨.scalar .empty token .empty, by simp [Source.text, Space.empty, htext], hscan⟩

theorem exists_source_of_word {json : Json} {c : Char} {word : List Char} {meaning : Scan}
    (hc : ∀ fuel text, Scan.readValue (fuel + 1) (c :: text) = Scan.readWord word meaning text)
    (hm : meaning.isScalar = true) (htext : json.text = c :: word) (hscan : json.scan = meaning) :
    ∃ source, json.Spelled source := by
  have hread : Scan.readWord word meaning word = (meaning, some []) := by
    rw [Scan.readWord, Scan.dropWord?_eq_some_iff.mpr (List.append_nil word).symm]
  obtain ⟨token, htoken, hvalue⟩ := Token.exists_word hc hm hread
  exact exists_source_of_token token (by rw [htext, htoken, List.append_nil])
    (hvalue.trans hscan.symm)

theorem exists_source_of_number (value : Nat) : ∃ source, (number value).Spelled source := by
  obtain ⟨token, htext, hvalue⟩ := Token.exists_number (Numeral.read_toDigits value)
  exact exists_source_of_token token (by rw [text, htext, List.append_nil]) (by rw [hvalue, scan])

theorem exists_source_of_string (value : String) : ∃ source, (string value).Spelled source := by
  refine exists_source_of_token
    (.ofQuoted (value.toList.flatMap escapeChar ++ ['"']) (some value) fun rest => ?_) ?_ rfl
  · rw [List.append_assoc]
    exact readString_escaped value rest
  · simp [Token.ofQuoted, text, stringText]

/-- The written key of an entry. -/
def label (key : String) : Label where
  before := .empty
  quoted := key.toList.flatMap escapeChar ++ ['"']
  key := some key
  after := .empty
  reads rest := by
    rw [List.append_assoc]
    exact readString_escaped key rest

theorem text_label (key : String) : (label key).text = stringText key ++ [':'] := by
  simp [label, Label.text, stringText, Space.empty]

theorem enclosed_items (item : Json) (items : List Json) :
    Source.enclosed ']' ((item :: items).map text) = item.text ++ itemsText items := by
  induction items generalizing item with
  | nil => rfl
  | cons other items ih =>
      rw [List.map_cons, Source.enclosed_cons _ _ (by simp), ih, itemsText]
      rfl

theorem enclosed_entries (entry : String × Json) (entries : List (String × Json)) :
    Source.enclosed '\x7d' ((entry :: entries).map fun entry =>
        (label entry.1).text ++ entry.2.text) =
      stringText entry.1 ++ ':' :: entry.2.text ++ entriesText entries := by
  induction entries generalizing entry with
  | nil => simp [Source.enclosed, text_label, entriesText]
  | cons other entries ih =>
      rw [List.map_cons, Source.enclosed_cons _ _ (by simp), ih, entriesText, text_label]
      simp

mutual

theorem exists_source : ∀ json : Json, ∃ source, json.Spelled source
  | null => exists_source_of_word (fun _ _ => rfl) rfl rfl rfl
  | bool true => exists_source_of_word (fun _ _ => rfl) rfl rfl rfl
  | bool false => exists_source_of_word (fun _ _ => rfl) rfl rfl rfl
  | number value => exists_source_of_number value
  | string value => exists_source_of_string value
  | array items => by
      obtain ⟨sources, htexts, hscans⟩ := exists_itemSources items
      refine ⟨.array .empty .empty sources .empty, ?_, ?_⟩
      · rw [Source.text, Source.itemTexts_eq_map, htexts]
        cases items with
        | nil => rfl
        | cons item items =>
            rw [enclosed_items, text]
            simp [Space.empty]
      · rw [Source.scan, Source.itemScans_eq_map, hscans, scan, itemScans_eq_map]
  | object entries => by
      obtain ⟨sources, htexts, hscans⟩ := exists_entrySources entries
      refine ⟨.object .empty .empty sources .empty, ?_, ?_⟩
      · rw [Source.text, Source.entryTexts_eq_map, htexts]
        cases entries with
        | nil => rfl
        | cons entry entries =>
            obtain ⟨key, value⟩ := entry
            rw [enclosed_entries, text]
            simp [Space.empty]
      · rw [Source.scan, Source.entryScans_eq_map, hscans, scan, entryScans_eq_map]

theorem exists_itemSources : ∀ items : List Json, ∃ sources : List Source,
    sources.map Source.text = items.map text ∧ sources.map Source.scan = items.map scan
  | [] => ⟨[], rfl, rfl⟩
  | item :: items => by
      obtain ⟨source, htext, hscan⟩ := exists_source item
      obtain ⟨sources, htexts, hscans⟩ := exists_itemSources items
      exact ⟨source :: sources, by simp [htext, htexts], by simp [hscan, hscans]⟩

theorem exists_entrySources : ∀ entries : List (String × Json),
    ∃ sources : List (Label × Source),
      (sources.map fun entry => entry.1.text ++ entry.2.text) =
          (entries.map fun entry => (label entry.1).text ++ entry.2.text) ∧
        (sources.map fun entry => (entry.1.key, entry.2.scan)) =
          entries.map fun entry => (some entry.1, entry.2.scan)
  | [] => ⟨[], rfl, rfl⟩
  | (key, value) :: entries => by
      obtain ⟨source, htext, hscan⟩ := exists_source value
      obtain ⟨sources, htexts, hscans⟩ := exists_entrySources entries
      refine ⟨(label key, source) :: sources, ?_, ?_⟩
      · rw [List.map_cons, List.map_cons, htexts, htext]
      · rw [List.map_cons, List.map_cons, hscans, hscan]
        rfl

end

/-- The text of a value is the text of one value, and of no other. -/
theorem ofText_text (json : Json) : Scan.ofText json.text = (json.scan, true) := by
  obtain ⟨source, htext, hscan⟩ := exists_source json
  rw [← htext, ← hscan]
  exact source.ofText_text

mutual

/-- How deep lists and objects are nested in one another. -/
def nesting : Json → Nat
  | array items => itemsNesting items + 1
  | object entries => entriesNesting entries + 1
  | _ => 0

/-- The nesting of the deepest item. -/
def itemsNesting : List Json → Nat
  | [] => 0
  | item :: items => max (nesting item) (itemsNesting items)

/-- The nesting of the deepest entry. -/
def entriesNesting : List (String × Json) → Nat
  | [] => 0
  | (_, value) :: entries => max (nesting value) (entriesNesting entries)

end

theorem itemsNesting_le_iff {items : List Json} {depth : Nat} :
    itemsNesting items ≤ depth ↔ ∀ item ∈ items, item.nesting ≤ depth := by
  induction items with
  | nil => simp [itemsNesting]
  | cons item items ih => rw [itemsNesting, Nat.max_le, ih, List.forall_mem_cons]

theorem entriesNesting_le_iff {entries : List (String × Json)} {depth : Nat} :
    entriesNesting entries ≤ depth ↔ ∀ entry ∈ entries, entry.2.nesting ≤ depth := by
  induction entries with
  | nil => simp [entriesNesting]
  | cons entry entries ih => rw [entriesNesting, Nat.max_le, ih, List.forall_mem_cons]

theorem nesting_array_le_iff {items : List Json} {depth : Nat} :
    (array items).nesting ≤ depth + 1 ↔ ∀ item ∈ items, item.nesting ≤ depth := by
  rw [nesting, Nat.add_le_add_iff_right, itemsNesting_le_iff]

theorem nesting_object_le_iff {entries : List (String × Json)} {depth : Nat} :
    (object entries).nesting ≤ depth + 1 ↔ ∀ entry ∈ entries, entry.2.nesting ≤ depth := by
  rw [nesting, Nat.add_le_add_iff_right, entriesNesting_le_iff]

end Json

end OutlineWiki
