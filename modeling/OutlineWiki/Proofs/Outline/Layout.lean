import OutlineWiki.Proofs.Json.Spelling
import OutlineWiki.Proofs.Outline.Placement

/-!
The layout of a text makes no difference to the tree that is read from it.

Objects may hold their fields in any order. A list of nodes is read in the same way in all
places where an object may hold one, whether it is read at once or kept for later.
-/

namespace OutlineWiki

/-- An object without the value under one of its keys. -/
structure Gap where
  before : Space
  inner : Space
  first : List (Label × Source)
  label : Label
  last : List (Label × Source)
  after : Space

/-- The object with a value in the gap. -/
def Gap.fill (gap : Gap) (value : Source) : Source :=
  .object gap.before gap.inner (gap.first ++ (gap.label, value) :: gap.last) gap.after

theorem Gap.scan_fill (gap : Gap) (value : Source) :
    (gap.fill value).scan =
      .object (Source.entryScans gap.first ++ (gap.label.key, value.scan) ::
        Source.entryScans gap.last) true := by
  simp [fill, Source.scan, Source.entryScans_eq_map]

namespace Node

/-- Reads the text of a node inside of a tree, given how deep it may be nested there. -/
def ofTextWithin (depth : Nat) (text : List Char) : Decoded Node :=
  read depth (Scan.ofText text).1

theorem ofTextWithin_text (depth : Nat) (source : Source) :
    ofTextWithin depth source.text = read depth source.scan := by
  rw [ofTextWithin, source.ofText_text]

theorem ofText_eq_ok_iff {text : List Char} {tree : Node} :
    ofText text = .ok tree ↔
      (Scan.ofText text).2 = true ∧ ofTextWithin nestingLimit text = .ok tree ∧
        tree.kind.isUnknown = false := by
  simp only [ofText, ofTextWithin]
  cases read nestingLimit (Scan.ofText text).1 with
  | error fault => simp
  | ok root =>
      cases (Scan.ofText text).2 with
      | false => simp
      | true =>
          constructor
          · intro h
            simp only [Bool.not_true, Bool.false_eq_true, if_false] at h
            split at h
            · cases h
            · next hkind =>
                cases h
                exact ⟨rfl, rfl, Bool.eq_false_iff.mpr hkind⟩
          · rintro ⟨_, hroot, hkind⟩
            cases hroot
            simp [hkind]

theorem ofText_text_iff {source : Source} {tree : Node} :
    ofText source.text = .ok tree ↔
      read nestingLimit source.scan = .ok tree ∧ tree.kind.isUnknown = false := by
  rw [ofText_eq_ok_iff, ofTextWithin_text, source.ofText_text, and_iff_right rfl]

theorem ofText_reorders {source other : Source} {tree : Node} (h : source.Reorders other)
    (ht : ofText source.text = .ok tree) : ofText other.text = .ok tree := by
  obtain ⟨hread, hkind⟩ := ofText_text_iff.mp ht
  exact ofText_text_iff.mpr ⟨h.read_eq (steady_read nestingLimit) hread, hkind⟩

/-- Texts of lists of nodes in the place of a list of a node that was read. -/
theorem ofTextWithin_fill {depth : Nat} {slot : Slot} {gap : Gap} {value : Source} {owner : Node}
    (hkey : gap.label.key = some slot.key)
    (h : ofTextWithin (depth + 2) (gap.fill value).text = .ok owner) (hf : slot.Fits owner.kind)
    (before inner after : Space) (items : List Source) (filled : Node) :
    ofTextWithin (depth + 2) (gap.fill (.array before inner items after)).text = .ok filled ↔
      ∃ nodes, items.mapM (fun item => ofTextWithin depth item.text) = .ok nodes ∧
        filled = slot.fill nodes owner := by
  have hitems : items.mapM (fun item => ofTextWithin depth item.text) =
      (items.map Source.scan).mapM (read depth) := by
    simp only [ofTextWithin_text, List.mapM_map]
    rfl
  rw [ofTextWithin_text, Gap.scan_fill, hkey] at h
  rw [ofTextWithin_text, Gap.scan_fill, hkey, hitems, Source.scan, Source.itemScans_eq_map]
  exact read_slot h hf

/-- Every text of a tree is spelled by a source, and all orders of the entries in its objects
spell the same tree. In all places that a node has, a list of texts reads as the nodes that the
texts read as by themselves, and it is accepted as soon as they are. -/
theorem ofText_layout :
    (∀ (text : List Char) (tree : Node), ofText text = .ok tree →
      (∃ source : Source, source.text = text) ∧
        ∀ source other : Source, source.text = text → source.Reorders other →
          ofText other.text = .ok tree) ∧
    ∀ (depth : Nat) (slot : Slot) (gap : Gap) (value : Source) (owner : Node),
      gap.label.key = some slot.key →
      ofTextWithin (depth + 2) (gap.fill value).text = .ok owner → slot.Fits owner.kind →
        ∀ (before inner after : Space) (items : List Source) (filled : Node),
          ofTextWithin (depth + 2) (gap.fill (.array before inner items after)).text =
              .ok filled ↔
            ∃ nodes, items.mapM (fun item => ofTextWithin depth item.text) = .ok nodes ∧
              filled = slot.fill nodes owner := by
  refine ⟨fun text tree htree => ⟨?_, ?_⟩, fun depth slot gap value owner hkey h hf => ?_⟩
  · obtain ⟨hall, _⟩ := ofText_eq_ok_iff.mp htree
    obtain ⟨source, hsource, _⟩ := Source.exists_of_ofText (Prod.ext rfl hall)
    exact ⟨source, hsource⟩
  · rintro source other rfl hreorders
    exact ofText_reorders hreorders htree
  · exact ofTextWithin_fill hkey h hf

/-- An entry whose value is a string, where neither the key nor the value has escapes. -/
def stringEntry (key value : String)
    (hk : ∀ rest, Scan.readString (key.toList ++ ['"'] ++ rest) = some (some key, rest))
    (hv : ∀ rest, Scan.readString (value.toList ++ ['"'] ++ rest) = some (some value, rest)) :
    Label × Source :=
  (⟨.empty, key.toList ++ ['"'], some key, .empty, hk⟩,
    .scalar .empty (.ofQuoted (value.toList ++ ['"']) (some value) hv) .empty)

/-- A list item without its tag. -/
def taggedItem : Gap where
  before := .empty
  inner := .empty
  first := [stringEntry "type" "list_item" (fun _ => rfl) fun _ => rfl]
  label := ⟨.empty, "tag\"".toList, some "tag", .empty, fun _ => rfl⟩
  last := []
  after := .empty

/-- A leaf with its fields in the one order and in the other. -/
def leaf (isTurned : Bool) : Source :=
  let kind := stringEntry "type" "plain_text" (fun _ => rfl) fun _ => rfl
  let value := stringEntry "value" "x" (fun _ => rfl) fun _ => rfl
  .object .empty .empty (if isTurned then [value, kind] else [kind, value]) .empty

def tagged (items : List Source) : Source :=
  taggedItem.fill (.array .empty .empty items .empty)

theorem tagged_reorders : (tagged [leaf false]).Reorders (tagged [leaf true]) := by
  have hleaf : (leaf false).Swaps (leaf true) := .entries (.swap _ _ [])
  exact .single (.value (@Source.Swaps.item .empty .empty .empty [] [] _ _ hleaf))

theorem ofText_layout_tagged :
    let item : Node := { kind := .listItem .none (some []) }
    let text : Node := { kind := .plainText "x" }
    (ofText (tagged [leaf false]).text = .ok (Slot.tag.fill [text] item) ∧
      (tagged [leaf false]).Reorders (tagged [leaf true]) ∧
      ofText (tagged [leaf true]).text = .ok (Slot.tag.fill [text] item)) ∧
    taggedItem.label.key = some Slot.tag.key ∧
      ofTextWithin nestingLimit (tagged []).text = .ok item ∧ Slot.tag.Fits item.kind ∧
      [leaf false].mapM (fun part => ofTextWithin (nestingLimit - 2) part.text) = .ok [text] ∧
      ofTextWithin nestingLimit (tagged [leaf false]).text = .ok (Slot.tag.fill [text] item) := by
  intro item text
  have hitem : ofTextWithin nestingLimit (tagged []).text = .ok item := by cbv
  have hfits : Slot.tag.Fits item.kind := ⟨.none, some [], rfl⟩
  have hleaf : [leaf false].mapM (fun part => ofTextWithin (nestingLimit - 2) part.text) =
      .ok [text] := by cbv
  have hfilled :
      ofTextWithin nestingLimit (tagged [leaf false]).text = .ok (Slot.tag.fill [text] item) :=
    (ofText_layout.2 (nestingLimit - 2) .tag taggedItem _ item rfl hitem hfits _ _ _ _ _).mpr
      ⟨[text], hleaf, rfl⟩
  have htree : ofText (tagged [leaf false]).text = .ok (Slot.tag.fill [text] item) :=
    ofText_eq_ok_iff.mpr ⟨congrArg Prod.snd (Source.ofText_text _), hfilled, rfl⟩
  have hother := (ofText_layout.1 _ _ htree).2 _ _ rfl tagged_reorders
  exact ⟨⟨htree, tagged_reorders, hother⟩, rfl, hitem, hfits, hleaf, hfilled⟩

end Node
end OutlineWiki
