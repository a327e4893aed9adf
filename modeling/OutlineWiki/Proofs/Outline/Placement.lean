import OutlineWiki.Proofs.Outline.Slots

/-!
Lists of nodes read alike wherever an object holds them.

An object may hold lists of nodes under four keys. Two of them are read where they stand,
and two are kept until the kind of the node is known, which asks more of them: a kept value
is whole and within the nesting limit. Whatever reads as a node passes that test, so that
all four places give the same nodes for the same items, and accept the same items.
-/

namespace OutlineWiki

open Scan (Steady)

namespace Node

open Fields

variable {nodes : Scan → Decoded (List Node)} {entries before after : List (Option String × Scan)}
  {closed : Bool} {scan other : Scan} {depth : Nat}

/-- A place for a list of nodes in an object. -/
inductive Slot where
  | children
  | caption
  | title
  | tag

namespace Slot

def key : Slot → String
  | children => "children"
  | caption => "caption"
  | title => "title"
  | tag => "tag"

/-- Nodes of the kind have the place. -/
def Fits : Slot → Kind Node → Prop
  | children, _ | caption, _ => True
  | title, kind => ∃ info title, kind = .headline info title
  | tag, kind => ∃ checkbox tag, kind = .listItem checkbox tag

/-- The node with other nodes in a place that it has. -/
def fill : Slot → List Node → Node → Node
  | children, list, owner => { owner with children := list }
  | caption, list, owner => { owner with caption := some list }
  | title, list, owner =>
    match owner.kind with
    | .headline info _ => { owner with kind := .headline info list }
    | _ => owner
  | tag, list, owner =>
    match owner.kind with
    | .listItem checkbox _ => { owner with kind := .listItem checkbox (some list) }
    | _ => owner

end Slot

@[simp]
theorem keys_commonFields :
    (commonFields nodes).keys = ["children", "post_blank", "name", "caption"] :=
  rfl

theorem isWhole_of_scalar (h : scan.isScalarWhole = true) : Scan.isWhole depth scan = true := by
  cases scan with
  | broken => cases h
  | array items closed => cases h
  | object entries closed => cases h
  | _ => cases depth <;> exact h

theorem isWhole_of_asString {value : String} (h : scan.asString = .ok value) :
    Scan.isWhole depth scan = true := by
  apply isWhole_of_scalar
  cases scan with
  | string value => cases value <;> trivial
  | _ => cases h

theorem isWhole_of_asWord {value : UInt32} (h : scan.asWord = .ok value) :
    Scan.isWhole depth scan = true := by
  apply isWhole_of_scalar
  cases scan with
  | number amount => cases amount <;> trivial
  | _ => cases h

theorem isWhole_of_asOption {α : Type} {read : Scan → Decoded α} {value : Option α}
    (hr : ∀ part, read scan = .ok part → Scan.isWhole depth scan = true)
    (h : scan.asOption read = .ok value) : Scan.isWhole depth scan = true := by
  by_cases hnull : scan = .null
  · subst hnull
    exact isWhole_of_scalar rfl
  · rw [Scan.asOption] at h
    · obtain ⟨part, hpart, _⟩ := Decoded.map_eq_ok.mp h
      exact hr part hpart
    · exact hnull

theorem isWhole_of_asList {α : Type} {read : Scan → Decoded α} {values : List α}
    (hr : ∀ scan value, read scan = .ok value → Scan.isWhole depth scan = true)
    (h : scan.asList read = .ok values) : Scan.isWhole (depth + 1) scan = true := by
  cases scan with
  | array items closed =>
      obtain ⟨hclosed, hvalues⟩ := Scan.asList_eq_ok_iff.mp h
      simp only [Scan.isWhole, Bool.and_eq_true, List.all_eq_true]
      refine ⟨hclosed, fun item hitem => ?_⟩
      obtain ⟨before, after, rfl⟩ := List.append_of_mem hitem
      obtain ⟨_, value, _, _, hvalue, _⟩ := Scan.mapM_append_cons_eq_ok.mp hvalues
      exact hr item value hvalue
  | _ => cases h

theorem isWhole_of_readEntries (hn : Steady nodes)
    (hw : ∀ scan list, nodes scan = .ok list → Scan.isWhole depth scan = true) {node : Node}
    (h : readEntries nodes depth entries closed = .ok node) :
    Scan.isWhole (depth + 1) (.object entries closed) = true := by
  obtain ⟨own, kind, hown, hpass, _, _⟩ := (readEntries_eq_ok_iff hn).mp h
  obtain ⟨hclosed, hkeyed, hchildren, hblank, hname, hcaption⟩ := read_commonFields_iff.mp hown
  simp only [Scan.isWhole, Bool.and_eq_true, List.all_eq_true]
  refine ⟨hclosed, fun entry hentry => ⟨hkeyed entry hentry, ?_⟩⟩
  obtain ⟨key, scan⟩ := entry
  obtain ⟨key, rfl⟩ := Option.isSome_iff_exists.mp (hkeyed _ hentry)
  by_cases hmem : key ∈ ["children", "post_blank", "name", "caption"]
  · simp only [List.mem_cons, List.not_mem_nil, or_false] at hmem
    obtain rfl | rfl | rfl | rfl := hmem
    · obtain ⟨list, hlist⟩ := hchildren.read_of_mem hentry
      exact hw scan list hlist
    · obtain ⟨value, hvalue⟩ := hblank.read_of_mem hentry
      exact isWhole_of_asOption (fun _ => isWhole_of_asWord) hvalue
    · obtain ⟨value, hvalue⟩ := hname.read_of_mem hentry
      exact isWhole_of_asOption (fun _ => isWhole_of_asString) hvalue
    · obtain ⟨value, hvalue⟩ := hcaption.read_of_mem hentry
      exact isWhole_of_asOption (fun list => hw scan list) hvalue
  · exact hpass _ hentry key rfl hmem

/-- What reads as a node could as well be kept: it is whole, and not nested too deep. -/
theorem isWhole_of_read {node : Node} (h : read depth scan = .ok node) :
    Scan.isWhole depth scan = true := by
  induction depth using Nat.strongRecOn generalizing scan node with
  | ind depth ih =>
      cases scan with
      | object entries closed =>
          match depth with
          | 0 => cases h
          | 1 =>
              refine isWhole_of_readEntries steady_readNodes_none (fun scan list hlist => ?_) h
              cases scan <;> cases hlist
          | depth + 2 =>
              refine isWhole_of_readEntries (Scan.steady_asList (steady_read depth)) ?_ h
              exact fun scan list hlist =>
                isWhole_of_asList (fun _ _ hvalue => ih depth (by omega) hvalue) hlist
      | _ => match depth with | 0 | 1 | _ + 2 => cases h

/-- Another value of a common field leaves the kind as it is. -/
theorem readEntries_common (hn : Steady nodes) (other : Scan) {key : String} {owner : Node}
    (hkey : key ∈ (commonFields nodes).keys)
    (h : readEntries nodes depth (before ++ (some key, scan) :: after) closed = .ok owner) :
    ∃ own, (commonFields nodes).read anything (before ++ (some key, scan) :: after) closed =
        .ok own ∧
      owner = ⟨owner.kind, own.children, own.postBlank, own.name, own.caption, 0⟩ ∧
      ∀ filled, readEntries nodes depth (before ++ (some key, other) :: after) closed =
          .ok filled ↔
        ∃ result, (commonFields nodes).read anything (before ++ (some key, other) :: after)
            closed = .ok result ∧
          filled =
            ⟨owner.kind, result.children, result.postBlank, result.name, result.caption, 0⟩ := by
  obtain ⟨own, kind, hown, hpass, hkind, rfl⟩ := (readEntries_eq_ok_iff hn).mp h
  refine ⟨own, hown, rfl, fun filled => ?_⟩
  rw [readEntries_eq_ok_iff hn, ← others_replace_of_mem scan _ hkey]
  constructor
  · rintro ⟨result, kind', hresult, _, hkind', hfilled⟩
    cases hkind.symm.trans hkind'
    exact ⟨result, hresult, hfilled⟩
  · rintro ⟨result, hresult, hfilled⟩
    exact ⟨result, kind, hresult, (passes_replace_of_mem hkey).mp hpass, hkind, hfilled⟩

theorem readEntries_children (hn : Steady nodes) {owner filled : Node}
    (h : readEntries nodes depth (before ++ (some "children", scan) :: after) closed = .ok owner) :
    readEntries nodes depth (before ++ (some "children", other) :: after) closed = .ok filled ↔
      ∃ list, nodes other = .ok list ∧ filled = { owner with children := list } := by
  obtain ⟨own, hown, howner, hfilled⟩ := readEntries_common hn other (by simp) h
  rw [hfilled, howner]
  simp only [read_commonFields_children hown]
  constructor
  · rintro ⟨_, ⟨list, hlist, rfl⟩, rfl⟩
    exact ⟨list, hlist, rfl⟩
  · rintro ⟨list, hlist, rfl⟩
    exact ⟨_, ⟨list, hlist, rfl⟩, rfl⟩

theorem readEntries_caption (hn : Steady nodes) {owner filled : Node}
    (h : readEntries nodes depth (before ++ (some "caption", scan) :: after) closed = .ok owner) :
    readEntries nodes depth (before ++ (some "caption", other) :: after) closed = .ok filled ↔
      ∃ list, other.asOption nodes = .ok list ∧ filled = { owner with caption := list } := by
  obtain ⟨own, hown, howner, hfilled⟩ := readEntries_common hn other (by simp) h
  rw [hfilled, howner]
  simp only [read_commonFields_caption hown]
  constructor
  · rintro ⟨_, ⟨list, hlist, rfl⟩, rfl⟩
    exact ⟨list, hlist, rfl⟩
  · rintro ⟨list, hlist, rfl⟩
    exact ⟨_, ⟨list, hlist, rfl⟩, rfl⟩

/-- Another value of a field of the kind is read under the same name of the kind. -/
theorem readKind_replace (other : Scan) {key : String} (hkey : key ≠ "type") {kind : Kind Node}
    (hkind : kind ≠ .unknown)
    (h : readKind nodes (before ++ (some key, scan) :: after) = .ok kind) :
    ∃ first last, (kindFields nodes kind.name).read anything (first ++ (some key, scan) :: last)
        true = .ok kind ∧
      ∀ result, readKind nodes (before ++ (some key, other) :: after) = .ok result ↔
        (kindFields nodes kind.name).read anything (first ++ (some key, other) :: last) true =
          .ok result := by
  have hl : typeField.Lawful := lawful_field _ _ _
  have hnot : key ∉ typeField.keys := by
    change key ∉ ["type"]
    simpa using hkey
  obtain ⟨name, hname, hread⟩ := readKind_eq_ok_iff.mp h
  obtain rfl := ((builds_kindFields name).of_read hread).resolve_right hkind
  rw [others_replace_of_not_mem hnot] at hread
  refine ⟨typeField.others before, typeField.others after, hread, fun result => ?_⟩
  rw [readKind_eq_ok_iff, others_replace_of_not_mem hnot,
    ← read_replace_of_not_mem scan _ hl hnot]
  constructor
  · rintro ⟨name, hname', hresult⟩
    cases hname.symm.trans hname'
    exact hresult
  · exact fun hresult => ⟨_, hname, hresult⟩

theorem readKind_title {info : HeadlineInfo} {title : List Node} {kind : Kind Node}
    (h : readKind nodes (before ++ (some "title", scan) :: after) = .ok (.headline info title)) :
    readKind nodes (before ++ (some "title", other) :: after) = .ok kind ↔
      ∃ list, nodes other = .ok list ∧ kind = .headline info list := by
  obtain ⟨first, last, hread, hresult⟩ := readKind_replace other (by decide) (by simp) h
  exact (hresult kind).trans (read_headlineFields_title hread)

theorem readKind_tag {checkbox : Checkbox} {tag : Option (List Node)} {kind : Kind Node}
    (h : readKind nodes (before ++ (some "tag", scan) :: after) = .ok (.listItem checkbox tag)) :
    readKind nodes (before ++ (some "tag", other) :: after) = .ok kind ↔
      ∃ list, other.asOption nodes = .ok list ∧ kind = .listItem checkbox list := by
  obtain ⟨first, last, hread, hresult⟩ := readKind_replace other (by decide) (by simp) h
  exact (hresult kind).trans (read_listItemFields_tag hread)

/-- Another value of a field that is kept, if it may be kept: only the kind may change. -/
theorem readEntries_kept (hn : Steady nodes) {key : String} {owner filled : Node}
    (hkey : key ∉ (commonFields nodes).keys) {P : Kind Node → Prop}
    (h : readEntries nodes depth (before ++ (some key, scan) :: after) closed = .ok owner)
    (hw : ∀ kind, P kind → Scan.isWhole depth other = true)
    (hk : ∀ {before after : List (Option String × Scan)} {kind : Kind Node},
      readKind nodes (before ++ (some key, scan) :: after) = .ok owner.kind →
        (readKind nodes (before ++ (some key, other) :: after) = .ok kind ↔ P kind)) :
    readEntries nodes depth (before ++ (some key, other) :: after) closed = .ok filled ↔
      ∃ kind, P kind ∧ filled = { owner with kind := kind } := by
  obtain ⟨own, kind, hown, hpass, hkind, rfl⟩ := (readEntries_eq_ok_iff hn).mp h
  rw [others_replace_of_not_mem hkey] at hkind
  rw [readEntries_eq_ok_iff hn, others_replace_of_not_mem hkey,
    ← read_replace_of_not_mem scan _ (orderly_commonFields hn).lawful hkey]
  simp only [hk hkind]
  constructor
  · rintro ⟨own', kind', hown', _, hkind', rfl⟩
    cases hown.symm.trans hown'
    exact ⟨kind', hkind', rfl⟩
  · rintro ⟨kind', hkind', rfl⟩
    exact ⟨own, kind', hown, passes_replace hpass (hw kind' hkind'), hkind', rfl⟩

theorem asOption_array {α : Type} {read : Scan → Decoded α} {items : List Scan}
    {value : Option α} :
    Scan.asOption read (.array items closed) = .ok value ↔
      ∃ part, read (.array items closed) = .ok part ∧ value = some part := by
  rw [Scan.asOption, Decoded.map_eq_ok]
  · simp only [eq_comm]
  · simp

/-- In each place that a node has, the items of a list read as the nodes that they read as alone. -/
theorem read_slot {slot : Slot} {owner filled : Node} {items : List Scan}
    (h : read (depth + 2) (.object (before ++ (some slot.key, scan) :: after) closed) = .ok owner)
    (hf : slot.Fits owner.kind) :
    read (depth + 2) (.object (before ++ (some slot.key, .array items true) :: after) closed) =
        .ok filled ↔
      ∃ list, items.mapM (read depth) = .ok list ∧ filled = slot.fill list owner := by
  have hn : Steady (Scan.asList (read depth)) := Scan.steady_asList (steady_read depth)
  have hw : ∀ list, Scan.asList (read depth) (.array items true) = .ok list →
      Scan.isWhole (depth + 1) (.array items true) = true :=
    fun list hlist => isWhole_of_asList (fun _ _ => isWhole_of_read) hlist
  have hlists : ∀ list, Scan.asList (read depth) (.array items true) = .ok list ↔
      items.mapM (read depth) = .ok list :=
    fun list => Scan.asList_eq_ok_iff.trans (and_iff_right rfl)
  have hnodes : readNodes (some (read depth)) = Scan.asList (read depth) := rfl
  rw [read, hnodes] at h ⊢
  cases slot with
  | children =>
      apply (readEntries_children hn h).trans
      simp only [hlists]
      rfl
  | caption =>
      apply (readEntries_caption hn h).trans
      simp only [asOption_array, hlists]
      constructor
      · rintro ⟨_, ⟨list, hlist, rfl⟩, rfl⟩
        exact ⟨list, hlist, rfl⟩
      · rintro ⟨list, hlist, rfl⟩
        exact ⟨_, ⟨list, hlist, rfl⟩, rfl⟩
  | title =>
      obtain ⟨info, title, hkind⟩ := hf
      have hkey : "title" ∉ (commonFields (Scan.asList (read depth))).keys := by
        rw [keys_commonFields]
        decide
      refine (readEntries_kept hn hkey h (fun kind ⟨list, hlist, _⟩ => hw list hlist)
        fun hread => readKind_title (hkind ▸ hread)).trans ?_
      simp only [hlists, Slot.fill, hkind]
      constructor
      · rintro ⟨_, ⟨list, hlist, rfl⟩, rfl⟩
        exact ⟨list, hlist, rfl⟩
      · rintro ⟨list, hlist, rfl⟩
        exact ⟨_, ⟨list, hlist, rfl⟩, rfl⟩
  | tag =>
      obtain ⟨checkbox, tag, hkind⟩ := hf
      have hkey : "tag" ∉ (commonFields (Scan.asList (read depth))).keys := by
        rw [keys_commonFields]
        decide
      refine (readEntries_kept hn hkey h ?_ fun hread => readKind_tag (hkind ▸ hread)).trans ?_
      · rintro kind ⟨_, hsome, _⟩
        obtain ⟨list, hlist, _⟩ := asOption_array.mp hsome
        exact hw list hlist
      · simp only [asOption_array, hlists, Slot.fill, hkind]
        constructor
        · rintro ⟨_, ⟨_, ⟨list, hlist, rfl⟩, rfl⟩, rfl⟩
          exact ⟨list, hlist, rfl⟩
        · rintro ⟨list, hlist, rfl⟩
          exact ⟨_, ⟨_, ⟨list, hlist, rfl⟩, rfl⟩, rfl⟩

end Node
end OutlineWiki
