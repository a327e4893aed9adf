import OutlineWiki.Proofs.Outline.Layout
import OutlineWiki.Proofs.Outline.ReadBack

/-!
Written trees are read back.

The nodes in a list stand two levels deeper than the node that the list belongs to. So a tree
is read back from its leaves up to its root, as long as its text is not nested deeper than the
limit. What was read from a text is nested no deeper than the text when it is written again.
-/

namespace OutlineWiki

open Fields

namespace Fields

variable {entries : List (Option String × Scan)} {key : String}

theorem FieldGives.exists_of_ne_nil {α : Type} {read : Scan → Decoded (List α)}
    {list : List α} (h : FieldGives key read (fun value => .ok (value.getD [])) entries list)
    (hne : list ≠ []) : ∃ scan, (some key, scan) ∈ entries ∧ read scan = .ok list := by
  obtain ⟨_, hnone⟩ | ⟨scan, part, hvalues, hpart, hsome⟩ := h
  · cases hnone
    exact absurd rfl hne
  · cases hsome
    have hmem : scan ∈ valuesOf key entries := hvalues ▸ List.mem_singleton_self scan
    obtain ⟨⟨own, value⟩, hentry, hvalue⟩ := List.mem_filterMap.mp hmem
    split at hvalue
    · next hkey =>
        cases hvalue
        cases hkey
        exact ⟨_, hentry, hpart⟩
    · cases hvalue

theorem FieldGives.exists_of_some {α : Type} {read : Scan → Decoded α} {part : α}
    (h : FieldGives key (Scan.asOption read) (fun value => .ok (value.getD none)) entries
      (some part)) : ∃ scan, read scan = .ok part := by
  obtain ⟨_, hnone⟩ | ⟨scan, value, _, hvalue, hsome⟩ := h
  · cases hnone
  · cases hsome
    by_cases hnull : scan = .null
    · subst hnull
      cases hvalue
    · rw [Scan.asOption] at hvalue
      · obtain ⟨own, hown, heq⟩ := Decoded.map_eq_ok.mp hvalue
        cases heq
        exact ⟨scan, hown⟩
      · exact hnull

end Fields

namespace LinkType

theorem ofTag_tag_of_known : ∀ type ∈ known, ofTag type.tag = type := by
  decide

/-- A type that a tag names is named by its own tag. -/
theorem ofTag_tag_ofTag (tag : String) : ofTag (ofTag tag).tag = ofTag tag := by
  cases hfind : known.find? fun type => Text.sameLatin type.tag.toList tag.toList with
  | none =>
      have hother : ofTag tag = other tag := by rw [ofTag, hfind]; rfl
      rw [hother]
      exact hother
  | some type =>
      have hknown : ofTag tag = type := by rw [ofTag, hfind]; rfl
      rw [hknown]
      exact ofTag_tag_of_known type (List.mem_of_find?_eq_some hfind)

end LinkType

namespace Node

/-- A tree as it may be read: no node has a number, and a tag names the type of each link. -/
structure Readable (tree : Node) : Prop where
  unnumbered : ∀ node ∈ tree.walk, node.id = 0
  named : ∀ node ∈ tree.walk, ∀ type path, node.kind = .link type path →
    ∃ tag, type = LinkType.ofTag tag

theorem Readable.member {node member : Node} (h : node.Readable) (hm : member ∈ node.members) :
    member.Readable where
  unnumbered inner hinner := h.unnumbered inner (mem_walk_of_mem_member hinner hm)
  named inner hinner := h.named inner (mem_walk_of_mem_member hinner hm)

theorem readable_of_members {node : Node} (hid : node.id = 0)
    (hlink : ∀ type path, node.kind = .link type path → ∃ tag, type = LinkType.ofTag tag)
    (hmembers : ∀ member ∈ node.members, member.Readable) : node.Readable := by
  have hwalk : ∀ inner ∈ node.walk,
      inner = node ∨ ∃ member ∈ node.members, inner ∈ member.walk := by
    intro inner hinner
    rwa [walk_eq, List.mem_cons, List.mem_flatMap] at hinner
  constructor
  · intro inner hinner
    obtain rfl | ⟨member, hm, hin⟩ := hwalk inner hinner
    · exact hid
    · exact (hmembers member hm).unnumbered inner hin
  · intro inner hinner
    obtain rfl | ⟨member, hm, hin⟩ := hwalk inner hinner
    · exact hlink
    · exact (hmembers member hm).named inner hin

/-- A tree is read back as long as it is not nested too deep. -/
theorem read_toJson {node : Node} {depth : Nat} (h : node.Readable)
    (hn : node.toJson.nesting ≤ depth) : read depth node.toJson.scan = .ok node := by
  induction node using member_induction generalizing depth with
  | step node ih =>
      have hid := h.unnumbered node (mem_walk_self node)
      have hlink : ∀ type path, node.kind = .link type path → LinkType.ofTag type.tag = type := by
        intro type path hkind
        obtain ⟨tag, rfl⟩ := h.named node (mem_walk_self node) type path hkind
        exact LinkType.ofTag_tag_ofTag tag
      rw [toJson_eq] at hn ⊢
      rw [Json.scan]
      match depth with
      | 0 => cases hn
      | 1 =>
          have hfields := Json.nesting_object_le_iff.mp hn
          refine readEntries_written steady_readNodes_none ?_ ?_ hid hlink hfields
          · intro scan list hlist
            cases scan <;> cases hlist
          · intro slot list hlist
            have harray := hfields _ (mem_present_iff.mpr (Slot.field_mem hlist))
            cases harray
      | depth + 2 =>
          have hfields := Json.nesting_object_le_iff.mp hn
          refine readEntries_written (Scan.steady_asList (steady_read depth)) ?_ ?_ hid hlink
            hfields
          · exact fun scan list hlist => isWhole_of_asList (fun _ _ => isWhole_of_read) hlist
          · intro slot list hlist
            have harray := hfields _ (mem_present_iff.mpr (Slot.field_mem hlist))
            have hitems := Json.nesting_array_le_iff.mp harray
            refine asList_scan fun member hm => ?_
            have hmember := Slot.mem_members hlist hm
            exact ih member hmember (h.member hmember) (hitems _ (List.mem_map_of_mem hm))

section Text

variable {nodes : Scan → Decoded (List Node)} {entries : List (Option String × Scan)}
  {closed : Bool} {depth : Nat} {node : Node}

/-- A kind that was read is read under its own name. -/
theorem readKind_name {kind : Kind Node} (hkind : kind ≠ .unknown)
    (h : readKind nodes entries = .ok kind) :
    (kindFields nodes kind.name).read anything (typeField.others entries) true = .ok kind := by
  obtain ⟨name, _, hread⟩ := readKind_eq_ok_iff.mp h
  rwa [((builds_kindFields name).of_read hread).resolve_right hkind]

theorem exists_tag_of_readKind {type : LinkType} {path : String}
    (h : readKind nodes entries = .ok (.link type path)) : ∃ tag, type = LinkType.ofTag tag := by
  have hbuilds : (kindFields nodes "link").Builds fun kind =>
      ∃ tag path, kind = .link (LinkType.ofTag tag) path :=
    builds_seq (builds_map fun tag path => ⟨tag, path, rfl⟩)
  obtain ⟨tag, _, heq⟩ := hbuilds.of_read (readKind_name (by simp) h)
  cases heq
  exact ⟨tag, rfl⟩

theorem exists_scan_of_readEntries (hn : Scan.Steady nodes)
    (h : readEntries nodes depth entries closed = .ok node) {slot : Slot} {list : List Node}
    (hlist : slot.written node = some list) : ∃ scan, nodes scan = .ok list := by
  obtain ⟨own, kind, hown, _, hkind, rfl⟩ := (readEntries_eq_ok_iff hn).mp h
  obtain ⟨_, _, hchildren, _, _, hcaption⟩ := read_commonFields_iff.mp hown
  cases slot with
  | children =>
      obtain ⟨hne, rfl⟩ := nonempty_eq_some_iff.mp hlist
      obtain ⟨scan, _, hscan⟩ := hchildren.exists_of_ne_nil hne
      exact ⟨scan, hscan⟩
  | caption =>
      have hsome : own.caption = some list := hlist
      exact FieldGives.exists_of_some (hsome ▸ hcaption)
  | title =>
      obtain ⟨info, hheadline, hne⟩ := written_title_iff.mp hlist
      cases hheadline
      obtain ⟨_, _, _, _, _, _, _, _, htitle, _, _, _, heq⟩ :=
        read_headlineFields_iff.mp (readKind_name (by simp) hkind)
      cases heq
      obtain ⟨scan, _, hscan⟩ := htitle.exists_of_ne_nil hne
      exact ⟨scan, hscan⟩
  | tag =>
      obtain ⟨checkbox, hitem⟩ := written_tag_iff.mp hlist
      cases hitem
      obtain ⟨_, _, _, _, _, htag, heq⟩ :=
        read_listItemFields_iff.mp (readKind_name (by simp) hkind)
      cases heq
      exact htag.exists_of_some

theorem depth_pos_of_tags (hn : Scan.Steady nodes)
    (h : readEntries nodes depth entries closed = .ok node) {info : HeadlineInfo}
    {title : List Node} (hheadline : node.kind = .headline info title) (hne : info.tags ≠ []) :
    0 < depth := by
  obtain ⟨own, kind, _, hpass, hkind, rfl⟩ := (readEntries_eq_ok_iff hn).mp h
  cases hheadline
  obtain ⟨_, _, _, _, _, _, _, htags, _, _, _, _, heq⟩ :=
    read_headlineFields_iff.mp (readKind_name (by simp) hkind)
  cases heq
  obtain ⟨scan, hmem, hscan⟩ := htags.exists_of_ne_nil hne
  have hentry := List.mem_of_mem_filter (List.mem_of_mem_filter hmem)
  have hwhole := hpass _ hentry "tags" rfl (by simp)
  cases depth with
  | zero => cases scan <;> first | cases hscan | cases hwhole
  | succ depth => exact Nat.succ_pos depth

/-- A node is nested one level deeper than the lists in it. -/
theorem nesting_toJson_le
    (hlists : ∀ slot list, Slot.written slot node = some list →
      (Json.array (list.map toJson)).nesting ≤ depth)
    (htags : ∀ info title, node.kind = .headline info title → info.tags ≠ [] → 0 < depth) :
    node.toJson.nesting ≤ depth + 1 := by
  rw [toJson_eq, Json.nesting_object_le_iff]
  rintro ⟨key, json⟩ hmem
  cases fieldValue_of_mem (mem_present_iff.mp hmem) rfl with
  | string value => exact Nat.zero_le depth
  | number fits => exact Nat.zero_le depth
  | flag => exact Nat.zero_le depth
  | nodes written => exact hlists _ _ written
  | @tags info title kind given =>
      obtain ⟨below, rfl⟩ : ∃ below, depth = below + 1 :=
        ⟨depth - 1, by have hpos := htags info title kind given; omega⟩
      apply Json.nesting_array_le_iff.mpr
      intro item hitem
      obtain ⟨tag, _, rfl⟩ := List.mem_map.mp hitem
      exact Nat.zero_le below

theorem exists_item_of_asList {α : Type} {read : Scan → Decoded α} {scan : Scan} {list : List α}
    (h : Scan.asList read scan = .ok list) : ∀ part ∈ list, ∃ item, read item = .ok part := by
  cases scan with
  | array items closed =>
      obtain ⟨_, hitems⟩ := Scan.asList_eq_ok_iff.mp h
      clear h
      induction items generalizing list with
      | nil =>
          cases hitems
          exact List.forall_mem_nil _
      | cons item items ih =>
          rw [List.mapM_cons] at hitems
          obtain ⟨first, hfirst, hrest⟩ := Decoded.bind_eq_ok.mp hitems
          obtain ⟨rest, hmore, heq⟩ := Decoded.bind_eq_ok.mp hrest
          cases heq
          exact List.forall_mem_cons.mpr ⟨⟨item, hfirst⟩, ih hmore⟩
  | _ => cases h

theorem of_readEntries (hn : Scan.Steady nodes)
    (h : readEntries nodes depth entries closed = .ok node)
    (hnodes : ∀ scan list, nodes scan = .ok list →
      (Json.array (list.map toJson)).nesting ≤ depth ∧ ∀ member ∈ list, member.Readable) :
    node.Readable ∧ node.toJson.nesting ≤ depth + 1 := by
  constructor
  · have hlink : ∀ type path, node.kind = .link type path →
        ∃ tag, type = LinkType.ofTag tag := by
      intro type path hlink
      obtain ⟨own, kind, _, _, hkind, rfl⟩ := (readEntries_eq_ok_iff hn).mp h
      cases hlink
      exact exists_tag_of_readKind hkind
    have hid : node.id = 0 := by
      obtain ⟨own, kind, _, _, _, rfl⟩ := (readEntries_eq_ok_iff hn).mp h
      rfl
    refine readable_of_members hid hlink fun member hmember => ?_
    obtain ⟨slot, list, hlist, hm⟩ := Slot.exists_written hmember
    obtain ⟨scan, hscan⟩ := exists_scan_of_readEntries hn h hlist
    exact (hnodes scan list hscan).2 member hm
  · refine nesting_toJson_le (fun slot list hlist => ?_) fun info title hkind hne =>
      depth_pos_of_tags hn h hkind hne
    obtain ⟨scan, hscan⟩ := exists_scan_of_readEntries hn h hlist
    exact (hnodes scan list hscan).1

/-- What was read is written without more nesting than was allowed for. -/
theorem of_read {scan : Scan} (h : read depth scan = .ok node) :
    node.Readable ∧ node.toJson.nesting ≤ depth := by
  induction depth using Nat.strongRecOn generalizing scan node with
  | ind depth ih =>
      cases scan with
      | object entries closed =>
          match depth with
          | 0 => cases h
          | 1 =>
              refine of_readEntries steady_readNodes_none h fun scan list hlist => ?_
              cases scan <;> cases hlist
          | depth + 2 =>
              -- The list takes one level and the node in it another one.
              refine of_readEntries (Scan.steady_asList (steady_read depth)) h ?_
              intro scan list hlist
              have hmembers : ∀ member ∈ list, member.Readable ∧ member.toJson.nesting ≤ depth := by
                intro member hm
                obtain ⟨item, hitem⟩ := exists_item_of_asList hlist member hm
                exact ih depth (by omega) hitem
              refine ⟨Json.nesting_array_le_iff.mpr fun item hitem => ?_,
                fun member hm => (hmembers member hm).1⟩
              obtain ⟨member, hm, rfl⟩ := List.mem_map.mp hitem
              exact (hmembers member hm).2
      | _ => match depth with | 0 | 1 | _ + 2 => cases h

end Text

theorem ofText_text_eq_ok_iff {tree : Node} :
    ofText tree.text = .ok tree ↔
      tree.kind.isUnknown = false ∧ tree.Readable ∧ tree.toJson.nesting ≤ nestingLimit := by
  rw [ofText_eq_ok_iff, ofTextWithin, text, Json.ofText_text, and_iff_right rfl]
  constructor
  · intro h
    exact ⟨h.2, of_read h.1⟩
  · rintro ⟨hkind, hreadable, hnesting⟩
    exact ⟨read_toJson hreadable hnesting, hkind⟩

/-- A tree is read back from its text exactly when it is one that may be read at all. So each tree
that was read from any text is read back from the text that is written for it. -/
theorem ofText_written (tree : Node) :
    (ofText tree.text = .ok tree ↔
      tree.kind.isUnknown = false ∧ tree.Readable ∧ tree.toJson.nesting ≤ nestingLimit) ∧
      ∀ source : List Char, ofText source = .ok tree → ofText tree.text = .ok tree := by
  refine ⟨ofText_text_eq_ok_iff, fun source hsource => ?_⟩
  obtain ⟨_, hread, hkind⟩ := ofText_eq_ok_iff.mp hsource
  exact ofText_text_eq_ok_iff.mpr ⟨hkind, of_read hread⟩

/-- A link whose type is named in capitals, with a control character in its path. -/
def capitalLink : Node :=
  { kind := .link (LinkType.ofTag "HTTP") "\x01\"" }

/-- An item with an empty tag and an empty caption. -/
def untagged : Node :=
  { kind := .listItem .none (some []), children := [capitalLink], caption := some [] }

theorem ofText_written_untagged :
    (untagged.kind.isUnknown = false ∧ untagged.Readable ∧
        untagged.toJson.nesting ≤ nestingLimit) ∧
      untagged.text =
        ("\x7b\"type\":\"list_item\",\"tag\":[],\"children\":[\x7b\"type\":\"link\"," ++
          "\"link_type\":\"http\",\"path\":\"\\u0001\\\"\"\x7d],\"caption\":[]\x7d").toList ∧
      ofText untagged.text = .ok untagged := by
  have hlink : capitalLink.Readable := by
    refine readable_of_members rfl (fun type path hkind => ?_) (List.forall_mem_nil _)
    cases hkind
    exact ⟨"HTTP", rfl⟩
  have hreadable : untagged.Readable := by
    refine readable_of_members rfl (fun type path hkind => ?_)
      (List.forall_mem_singleton.mpr hlink)
    cases hkind
  have hnesting : untagged.toJson.nesting ≤ nestingLimit := by decide +kernel
  have hread := (ofText_written untagged).1.mpr ⟨rfl, hreadable, hnesting⟩
  exact ⟨⟨rfl, hreadable, hnesting⟩, by decide +kernel,
    (ofText_written untagged).2 untagged.text hread⟩

end Node
end OutlineWiki
