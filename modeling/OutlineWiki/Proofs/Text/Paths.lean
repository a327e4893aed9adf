import Mathlib.Data.List.Infix
import OutlineWiki.Path
import OutlineWiki.Proofs.Text.Pieces

/-!
Where an absolute path leads.

Segments are read from left to right. A name leads down, two dots lead back up, but from the root
they lead nowhere, and spare segments do not lead anywhere. So a name lasts when the segments after
it never lead further up than they have led down before. The names that last are joined to a path
that leads to the same place and is its own normal form.
-/

namespace OutlineWiki.Path

open OutlineWiki.Text

/-- Whether a segment names something, and neither is spare nor leads up. -/
def isName (segment : List Char) : Bool :=
  segment != [] && segment != ['.'] && segment != ['.', '.']

/-- Reading segments from left to right leads from the first names to the last ones. -/
inductive Resolves : List (List Char) → List (List Char) → List (List Char) → Prop where
  | done (kept : List (List Char)) : Resolves kept [] kept
  | skip {segment : List Char} {kept rest last : List (List Char)}
      (spare : segment = [] ∨ segment = ['.']) (more : Resolves kept rest last) :
      Resolves kept (segment :: rest) last
  | up {name : List Char} {kept rest last : List (List Char)} (more : Resolves kept rest last) :
      Resolves (kept ++ [name]) (['.', '.'] :: rest) last
  | stay {rest last : List (List Char)} (more : Resolves [] rest last) :
      Resolves [] (['.', '.'] :: rest) last
  | down {segment : List Char} {kept rest last : List (List Char)}
      (name : isName segment = true) (more : Resolves (kept ++ [segment]) rest last) :
      Resolves kept (segment :: rest) last

/-- Whether segments never lead further up than they have led down before. -/
def staysBelow (segments : List (List Char)) : Bool :=
  segments.inits.all fun before => before.count ['.', '.'] ≤ before.countP isName

/-- The names among segments that no later segment leads back from. -/
def lasting : List (List Char) → List (List Char)
  | [] => []
  | segment :: rest =>
    if isName segment && staysBelow rest then segment :: lasting rest else lasting rest

/-- The path leads to where the names do from the root. -/
structure LeadsTo (path : List Char) (names : List (List Char)) : Prop where
  read : ∀ other, Resolves [] (splitOn '/' path) other ↔ other = names
  lasts : names = lasting (splitOn '/' path)
  named : ∀ name ∈ names, isName name = true ∧ '/' ∉ name

variable {segment : List Char} {segments rest names : List (List Char)}

theorem spare_or_up_or_isName (segment : List Char) :
    (segment = [] ∨ segment = ['.']) ∨ segment = ['.', '.'] ∨ isName segment = true := by
  by_cases hspare : segment = [] ∨ segment = ['.']
  · exact .inl hspare
  · by_cases hup : segment = ['.', '.']
    · exact .inr (.inl hup)
    · obtain ⟨hfilled, hdot⟩ := not_or.mp hspare
      exact .inr (.inr (by simp [isName, hfilled, hdot, hup]))

theorem not_isName_of_spare (h : segment = [] ∨ segment = ['.']) : isName segment = false := by
  obtain rfl | rfl := h <;> rfl

theorem ne_up_of_isName (h : isName segment = true) : segment ≠ ['.', '.'] := by
  rintro rfl
  cases h

section Directories

/-- The directory that segments lead to from another one, both with the last name first. -/
def follow (directory segments : List (List Char)) : List (List Char) :=
  (segments.filter fun segment => !(segment.isEmpty || segment == ['.'])).foldl enter directory

theorem normalize_eq (path : List Char) :
    normalize path = '/' :: join ['/'] (follow [] (splitOn '/' path)).reverse :=
  rfl

theorem follow_spare (h : segment = [] ∨ segment = ['.']) (directory rest : List (List Char)) :
    follow directory (segment :: rest) = follow directory rest := by
  obtain rfl | rfl := h <;> rfl

theorem follow_up (directory rest : List (List Char)) :
    follow directory (['.', '.'] :: rest) = follow directory.tail rest :=
  rfl

theorem follow_name (h : isName segment = true) (directory rest : List (List Char)) :
    follow directory (segment :: rest) = follow (segment :: directory) rest := by
  have hup := ne_up_of_isName h
  simp only [isName, Bool.and_eq_true, bne_iff_ne] at h
  rw [follow, List.filter_cons_of_pos (by simp [h.1.1, h.1.2]), List.foldl_cons, enter,
    if_neg (by simpa using hup)]
  rfl

theorem resolves_follow (directory segments : List (List Char)) :
    Resolves directory.reverse segments (follow directory segments).reverse := by
  induction segments generalizing directory with
  | nil => exact .done _
  | cons segment rest ih =>
      obtain hspare | rfl | hname := spare_or_up_or_isName segment
      · rw [follow_spare hspare]
        exact .skip hspare (ih directory)
      · rw [follow_up]
        cases directory with
        | nil => exact .stay (ih [])
        | cons name directory =>
            rw [List.reverse_cons]
            exact .up (ih directory)
      · rw [follow_name hname]
        have hmore := ih (segment :: directory)
        rw [List.reverse_cons] at hmore
        exact .down hname hmore

theorem Resolves.eq_follow {kept last : List (List Char)} (h : Resolves kept segments last) :
    last = (follow kept.reverse segments).reverse := by
  induction h with
  | done kept => exact (List.reverse_reverse kept).symm
  | skip spare _ ih => rw [follow_spare spare, ih]
  | up _ ih => rw [follow_up, List.reverse_concat, List.tail_cons, ih]
  | stay _ ih => exact ih
  | down name _ ih => rw [follow_name name, ih, List.reverse_concat]

end Directories

section Lasting

/-- How far segments lead up from where they start. -/
def climbs : List (List Char) → Nat
  | [] => 0
  | segment :: rest =>
    if segment = ['.', '.'] then climbs rest + 1
    else if isName segment then climbs rest - 1
    else climbs rest

theorem climbs_spare (h : segment = [] ∨ segment = ['.']) (rest : List (List Char)) :
    climbs (segment :: rest) = climbs rest := by
  obtain rfl | rfl := h <;> rfl

theorem climbs_name (h : isName segment = true) (rest : List (List Char)) :
    climbs (segment :: rest) = climbs rest - 1 := by
  rw [climbs, if_neg (ne_up_of_isName h), if_pos h]

theorem forall_prefix_cons {motive : List (List Char) → Prop} :
    (∀ before, before <+: segment :: rest → motive before) ↔
      motive [] ∧ ∀ before, before <+: rest → motive (segment :: before) := by
  simp only [List.prefix_cons_iff]
  constructor
  · exact fun h => ⟨h [] (.inl rfl), fun before hin => h _ (.inr ⟨before, rfl, hin⟩)⟩
  · rintro ⟨hnil, hcons⟩ _ (rfl | ⟨before, rfl, hin⟩)
    · exact hnil
    · exact hcons before hin

/-- Segments lead up by no more than a number when none of their starts does. -/
theorem climbs_le_iff (segments : List (List Char)) (levels : Nat) :
    climbs segments ≤ levels ↔ ∀ before, before <+: segments →
      before.count ['.', '.'] ≤ before.countP isName + levels := by
  induction segments generalizing levels with
  | nil => simp [climbs]
  | cons segment rest ih =>
      have hnil : List.count ['.', '.'] [] ≤ List.countP isName [] + levels := Nat.zero_le _
      rw [forall_prefix_cons, and_iff_right hnil]
      obtain hspare | rfl | hname := spare_or_up_or_isName segment
      · have hup : segment ≠ ['.', '.'] := by obtain rfl | rfl := hspare <;> decide
        simp only [climbs_spare hspare, ih, List.count_cons_of_ne hup,
          List.countP_cons_of_neg (Bool.eq_false_iff.mp (not_isName_of_spare hspare))]
      · have hname : ¬ isName ['.', '.'] = true := by decide
        simp only [climbs, if_true, List.count_cons_self, List.countP_cons_of_neg hname]
        cases levels with
        | zero =>
            refine ⟨fun h => absurd h (Nat.not_succ_le_zero _), fun h => ?_⟩
            exact absurd (h [] List.nil_prefix) (Nat.not_succ_le_zero _)
        | succ levels => simp only [Nat.add_le_add_iff_right, ih, ← Nat.add_assoc]
      · have hup := ne_up_of_isName hname
        simp only [climbs_name hname, Nat.sub_le_iff_le_add, ih, List.count_cons_of_ne hup,
          List.countP_cons_of_pos hname, Nat.add_assoc, Nat.add_comm 1]

theorem staysBelow_iff : staysBelow segments = true ↔ climbs segments = 0 := by
  rw [← Nat.le_zero, climbs_le_iff, staysBelow, List.all_eq_true]
  simp

theorem lasting_of_not_isName (h : isName segment = false) (rest : List (List Char)) :
    lasting (segment :: rest) = lasting rest := by
  rw [lasting, h]
  rfl

/-- Segments lead to the names that last, after those of the directory that they do not leave. -/
theorem follow_eq (directory segments : List (List Char)) :
    follow directory segments = (lasting segments).reverse ++ directory.drop (climbs segments) := by
  induction segments generalizing directory with
  | nil => rfl
  | cons segment rest ih =>
      obtain hspare | rfl | hname := spare_or_up_or_isName segment
      · rw [follow_spare hspare, lasting_of_not_isName (not_isName_of_spare hspare),
          climbs_spare hspare, ih]
      · rw [follow_up, lasting_of_not_isName rfl, climbs, if_pos rfl, ih, List.drop_tail]
      · -- The name is the first that a way up from what follows takes back.
        rw [follow_name hname, climbs_name hname, ih, lasting, hname, Bool.true_and]
        cases hclimbs : climbs rest with
        | zero =>
            rw [if_pos (staysBelow_iff.mpr hclimbs)]
            simp
        | succ levels =>
            have hleft : ¬ staysBelow rest = true := fun hstays => by
              rw [staysBelow_iff.mp hstays] at hclimbs
              cases hclimbs
            rw [if_neg hleft]
            rfl

theorem follow_root (segments : List (List Char)) :
    follow [] segments = (lasting segments).reverse := by
  rw [follow_eq, List.drop_nil, List.append_nil]

theorem of_mem_lasting {name : List Char} (h : name ∈ lasting segments) :
    name ∈ segments ∧ isName name = true := by
  induction segments with
  | nil => cases h
  | cons segment rest ih =>
      rw [lasting] at h
      split at h
      · next hlasts =>
          obtain rfl | h := List.mem_cons.mp h
          · exact ⟨List.mem_cons_self, (Bool.and_eq_true _ _ ▸ hlasts).1⟩
          · exact ⟨List.mem_cons_of_mem _ (ih h).1, (ih h).2⟩
      · exact ⟨List.mem_cons_of_mem _ (ih h).1, (ih h).2⟩

theorem climbs_names (h : ∀ name ∈ names, isName name = true) : climbs names = 0 := by
  induction names with
  | nil => rfl
  | cons name names ih =>
      obtain ⟨hname, hnames⟩ := List.forall_mem_cons.mp h
      rw [climbs_name hname, ih hnames]

theorem lasting_names (h : ∀ name ∈ names, isName name = true) : lasting names = names := by
  induction names with
  | nil => rfl
  | cons name names ih =>
      obtain ⟨hname, hnames⟩ := List.forall_mem_cons.mp h
      rw [lasting, hname, staysBelow_iff.mpr (climbs_names hnames), ih hnames]
      rfl

end Lasting

section Normal

theorem follow_names (h : ∀ name ∈ names, isName name = true) :
    follow [] names = names.reverse := by
  rw [follow_root, lasting_names h]

/-- Names that are joined to a path are the segments of it. -/
theorem splitOn_names (hne : names ≠ []) (h : ∀ name ∈ names, '/' ∉ name) :
    splitOn '/' ('/' :: join ['/'] names) = [] :: names := by
  rw [splitOn_cons_self, splitOn_join hne h]

theorem normalize_names (h : ∀ name ∈ names, isName name = true ∧ '/' ∉ name) :
    normalize ('/' :: join ['/'] names) = '/' :: join ['/'] names := by
  by_cases hne : names = []
  · rw [hne]
    rfl
  · rw [normalize_eq, splitOn_names hne fun name hname => (h name hname).2,
      follow_spare (.inl rfl), follow_names fun name hname => (h name hname).1,
      List.reverse_reverse]

theorem leadsTo_lasting (path : List Char) : LeadsTo path (lasting (splitOn '/' path)) where
  read other := by
    have hfollow : (follow [] (splitOn '/' path)).reverse = lasting (splitOn '/' path) := by
      rw [follow_root, List.reverse_reverse]
    constructor
    · exact fun h => h.eq_follow.trans hfollow
    · rintro rfl
      rw [← hfollow]
      exact resolves_follow [] (splitOn '/' path)
  lasts := rfl
  named name h := ⟨(of_mem_lasting h).2, notMem_of_mem_splitOn (of_mem_lasting h).1⟩

/-- Above the root there is only the root. -/
theorem normalize_up (rest : List Char) :
    normalize ("/..".toList ++ '/' :: rest) = normalize ('/' :: rest) := by
  have hup : splitOn '/' ("/..".toList ++ '/' :: rest) =
      [] :: ['.', '.'] :: splitOn '/' rest :=
    (splitOn_cons_self '/' _).trans (congrArg _ (splitOn_append_mark (by decide) rest))
  rw [normalize_eq, normalize_eq, hup, splitOn_cons_self]
  rfl

end Normal

/-- An absolute path leads to names that last. Its normal form consists of these names and is its
own normal form, and to lead up from the root first makes no difference. -/
theorem normalize_resolves {path : List Char} (h : isAbsolute path = true) :
    ∃ names, LeadsTo path names ∧ normalize path = '/' :: join ['/'] names ∧
      (names ≠ [] → splitOn '/' (normalize path) = [] :: names) ∧
      normalize ("/..".toList ++ path) = normalize path ∧
      normalize (normalize path) = normalize path := by
  obtain ⟨rest, rfl⟩ : ∃ rest, path = '/' :: rest := by
    rw [isAbsolute, beq_iff_eq] at h
    exact List.head?_eq_some_iff.mp h
  have hleads := leadsTo_lasting ('/' :: rest)
  have hnormal : normalize ('/' :: rest) =
      '/' :: join ['/'] (lasting (splitOn '/' ('/' :: rest))) := by
    rw [normalize_eq, follow_root, List.reverse_reverse]
  refine ⟨_, hleads, hnormal, fun hne => ?_, normalize_up rest, ?_⟩
  · rw [hnormal]
    exact splitOn_names hne fun name hname => (hleads.named name hname).2
  · rw [hnormal]
    exact normalize_names hleads.named

theorem normalize_resolves_crossing :
    isAbsolute "/../a//b/./c/../../d/".toList = true ∧
      LeadsTo "/../a//b/./c/../../d/".toList ["a".toList, "d".toList] ∧
      normalize "/../a//b/./c/../../d/".toList = "/a/d".toList := by
  have habsolute : isAbsolute "/../a//b/./c/../../d/".toList = true := by decide
  obtain ⟨names, hleads, hnormal, _⟩ := normalize_resolves habsolute
  obtain rfl : names = ["a".toList, "d".toList] := hleads.lasts.trans (by decide)
  exact ⟨habsolute, hleads, hnormal⟩

end OutlineWiki.Path
