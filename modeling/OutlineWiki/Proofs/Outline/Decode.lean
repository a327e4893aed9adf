import OutlineWiki.Outline.Decode
import OutlineWiki.Proofs.Json.Order

/-!
Reading nodes from objects with their fields in any order.
-/

namespace OutlineWiki

open Scan (Steady Moves Reordering)

namespace Fields

variable {α : Type}

theorem orderly_required (key : String) {read : Scan → Decoded α} (hr : Steady read) :
    (required key read).Orderly :=
  orderly_field hr

theorem orderly_optional (key : String) (default : α) {read : Scan → Decoded α}
    (hr : Steady read) : (optional key default read).Orderly :=
  orderly_field hr

theorem orderly_nullable (key : String) {read : Scan → Decoded α} (hr : Steady read) :
    (nullable key read).Orderly :=
  orderly_optional key none (Scan.steady_asOption hr)

theorem others_moves {fields : Fields α} {entries others : List (Option String × Scan)}
    (h : Moves entries others) : Moves (fields.others entries) (fields.others others) := by
  cases h with
  | perm h => exact .perm (h.filter _)
  | @value before after key value other step =>
      simp only [Fields.others, List.filter_append, List.filter_cons]
      split
      · exact .value step
      · exact .perm (.refl _)

theorem passes_moves {fields : Fields α} {depth : Nat}
    {entries others : List (Option String × Scan)} (h : Moves entries others)
    (hp : ∀ entry ∈ entries, fields.Passes (Scan.isWhole depth) entry) :
    ∀ entry ∈ others, fields.Passes (Scan.isWhole depth) entry := by
  cases h with
  | perm h => exact fun entry he => hp entry (h.mem_iff.mpr he)
  | @value before after key value other step =>
      intro entry he
      obtain he | rfl | he := List.mem_append.mp he |>.imp_right List.mem_cons.mp
      · exact hp entry (List.mem_append_left _ he)
      · intro own hown hnot
        exact Scan.isWhole_of_reordering step
          (hp (key, value) (List.mem_append_right _ List.mem_cons_self) own hown hnot)
      · exact hp entry (List.mem_append_right _ (List.mem_cons_of_mem _ he))

end Fields

namespace Node

open Fields

variable {nodes : Scan → Decoded (List Node)}

theorem orderly_commonFields (hn : Steady nodes) : (commonFields nodes).Orderly := by
  refine orderly_seq (orderly_seq (orderly_seq (orderly_map _ ?children) ?blank rfl) ?name rfl)
    ?caption rfl
  case children => exact orderly_optional _ _ hn
  case blank => exact orderly_nullable _ Scan.steady_asWord
  case name => exact orderly_nullable _ Scan.steady_asString
  case caption => exact orderly_nullable _ hn

theorem orderly_headlineFields (hn : Steady nodes) : (headlineFields nodes).Orderly := by
  refine orderly_seq (orderly_seq (orderly_seq (orderly_seq (orderly_seq (orderly_seq (orderly_seq
    (orderly_map _ ?level) ?todo rfl) ?priority rfl) ?tags rfl) ?title rfl) ?customId rfl)
    ?id rfl) ?footnoteSection rfl
  case level => exact orderly_required _ Scan.steady_asByte
  case todo | customId | id => exact orderly_nullable _ Scan.steady_asString
  case priority => exact orderly_nullable _ Scan.steady_asChar
  case tags => exact orderly_optional _ _ (Scan.steady_asList Scan.steady_asString)
  case title => exact orderly_optional _ _ hn
  case footnoteSection => exact orderly_optional _ _ Scan.steady_asBool

theorem orderly_kindFields (hn : Steady nodes) (name : String) :
    (kindFields nodes name).Orderly := by
  have hvalue : valueField.Orderly := orderly_required _ Scan.steady_asString
  have hname : ∀ key, (Fields.nullable key Scan.asString).Orderly :=
    fun key => orderly_nullable key Scan.steady_asString
  unfold kindFields
  split
  case h_3 => exact orderly_headlineFields hn
  case h_5 | h_8 => exact orderly_map _ (orderly_optional _ _ (Scan.steady_asVariant _))
  case h_6 =>
    exact orderly_seq (orderly_map _ (orderly_optional _ _ (Scan.steady_asVariant _)))
      (orderly_nullable _ hn) rfl
  case h_7 =>
    exact orderly_seq (orderly_map _ (orderly_optional _ _ (Scan.steady_asVariant _)))
      (hname _) rfl
  case h_10 =>
    exact orderly_seq (orderly_map _ (orderly_required _ Scan.steady_asString))
      (orderly_required _ Scan.steady_asString) rfl
  case h_11 => exact orderly_map _ (hname _)
  case h_12 => exact orderly_map _ (orderly_required _ Scan.steady_asString)
  case h_21 =>
    exact orderly_seq (orderly_seq (orderly_map _ (hname _)) hvalue rfl)
      (orderly_optional _ _ Scan.steady_asBool) rfl
  case h_15 | h_16 | h_20 | h_22 | h_25 => exact orderly_map _ hvalue
  all_goals exact orderly_constant _

theorem steady_asKindName : Steady asKindName :=
  Scan.steady_of_scalar (fun _ _ _ h => by cases h) fun _ _ _ h => by cases h

/-- The field that names the kind of a node. -/
def typeField : Fields String :=
  .required "type" asKindName

theorem readKind_eq_ok_iff {entries : List (Option String × Scan)} {kind : Kind Node} :
    readKind nodes entries = .ok kind ↔
      ∃ name, typeField.read anything entries true = .ok name ∧
        (kindFields nodes name).read anything (typeField.others entries) true = .ok kind :=
  Decoded.bind_eq_ok

theorem readKind_moves (hn : Steady nodes) {entries others : List (Option String × Scan)}
    (hm : Moves entries others) {kind : Kind Node} (h : readKind nodes entries = .ok kind) :
    readKind nodes others = .ok kind := by
  obtain ⟨name, hname, hkind⟩ := readKind_eq_ok_iff.mp h
  exact readKind_eq_ok_iff.mpr
    ⟨name, (orderly_required _ steady_asKindName).steady _ _ _ _ hm hname,
      (orderly_kindFields hn name).steady _ _ _ _ (others_moves hm) hkind⟩

/-- A node is read from its own fields, the fields of its kind, and nothing else. -/
theorem readEntries_eq_ok_iff (hn : Steady nodes) {depth : Nat}
    {entries : List (Option String × Scan)} {closed : Bool} {node : Node} :
    readEntries nodes depth entries closed = .ok node ↔
      ∃ own kind, (commonFields nodes).read anything entries closed = .ok own ∧
        (∀ entry ∈ entries, (commonFields nodes).Passes (Scan.isWhole depth) entry) ∧
        readKind nodes ((commonFields nodes).others entries) = .ok kind ∧
        node = ⟨kind, own.children, own.postBlank, own.name, own.caption, 0⟩ := by
  have hl := (orderly_commonFields hn).lawful
  simp only [readEntries, Decoded.bind_eq_ok]
  constructor
  · rintro ⟨own, hread, kind, hkind, hnode⟩
    obtain ⟨hown, hpass⟩ := (read_accepts_iff hl).mp hread
    cases hnode
    exact ⟨own, kind, hown, hpass, hkind, rfl⟩
  · rintro ⟨own, kind, hown, hpass, hkind, rfl⟩
    exact ⟨own, (read_accepts_iff hl).mpr ⟨hown, hpass⟩, kind, hkind, rfl⟩

theorem readEntries_moves (hn : Steady nodes) {depth : Nat}
    {entries others : List (Option String × Scan)} (hm : Moves entries others) {closed : Bool}
    {node : Node} (h : readEntries nodes depth entries closed = .ok node) :
    readEntries nodes depth others closed = .ok node := by
  obtain ⟨own, kind, hown, hpass, hkind, hnode⟩ := (readEntries_eq_ok_iff hn).mp h
  exact (readEntries_eq_ok_iff hn).mpr
    ⟨own, kind, (orderly_commonFields hn).steady _ _ _ _ hm hown, passes_moves hm hpass,
      readKind_moves hn (others_moves hm) hkind, hnode⟩

theorem steady_readNodes_none : Steady (readNodes none) := by
  intro scan other value hstep h
  cases scan <;> cases h

/-- At every depth a node is read in the same way from reordered text. -/
theorem steady_read (depth : Nat) : Steady (read depth) := by
  induction depth using Nat.strongRecOn with
  | ind depth ih =>
      have hentries : ∀ entries others closed node, Moves entries others →
          read depth (.object entries closed) = .ok node →
            read depth (.object others closed) = .ok node := by
        intro entries others closed node hm h
        match depth with
        | 0 => cases h
        | 1 => exact readEntries_moves steady_readNodes_none hm h
        | depth + 2 =>
            exact readEntries_moves (Scan.steady_asList (ih depth (by omega))) hm h
      intro scan other node hstep h
      cases hstep with
      | entries perm => exact hentries _ _ _ node (.perm perm) h
      | item step => match depth with | 0 | 1 | _ + 2 => cases h
      | value step => exact hentries _ _ _ node (.value step) h

end Node
end OutlineWiki
