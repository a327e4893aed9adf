import Mathlib.Data.List.Perm.Basic
import OutlineWiki.Proofs.Rendering.Brackets
import OutlineWiki.Proofs.Text.Names

/-!
Dashes and dots as entities.

Three replacements are made one after the other. None of them makes or breaks what a later one looks
for, so each longest run of dashes or dots becomes as many of the longest entities as it has room
for, and a rest that depends on its length alone. The entities can be replaced back in a text that
held none before, and escaping does not mind them.
-/

namespace OutlineWiki.Markup

open OutlineWiki.Text

inductive Entity where
  | emDash
  | enDash
  | ellipsis
  deriving DecidableEq, Repr

namespace Entity

/-- What follows the ampersand in the name of an entity. -/
def letters : Entity → List Char
  | emDash => "mdash;".toList
  | enDash => "ndash;".toList
  | ellipsis => "hellip;".toList

def name (entity : Entity) : List Char :=
  '&' :: entity.letters

/-- The character that an entity stands for, a number of times. -/
def mark : Entity → Char
  | emDash | enDash => '-'
  | ellipsis => '.'

/-- How many times an entity stands for its character. -/
def size : Entity → Nat
  | emDash | ellipsis => 3
  | enDash => 2

def meaning (entity : Entity) : List Char :=
  List.replicate entity.size entity.mark

theorem size_pos (entity : Entity) : 0 < entity.size := by
  cases entity <;> decide

theorem meaning_ne_nil (entity : Entity) : entity.meaning ≠ [] := by
  cases entity <;> decide

theorem isApart {entity other : Entity} (h : entity ≠ other) :
    IsApart '&' entity.letters entity.meaning other.letters := by
  cases entity <;> cases other <;> first
    | exact absurd rfl h
    | exact ⟨by decide, by decide, by decide, head_notMem (by decide), by decide⟩

/-- Replaces entities by what they stand for, one after the other. -/
def restored (order : List Entity) (text : List Char) : List Char :=
  order.foldl (fun text entity => replaceAll entity.name entity.meaning text) text

end Entity

open Entity

variable {text before after : List Char}

theorem namedDashes_eq (text : List Char) :
    namedDashes text = replaceAll ellipsis.meaning ellipsis.name
      (replaceAll enDash.meaning enDash.name (replaceAll emDash.meaning emDash.name text)) :=
  rfl

section Back

theorem restored_of_perm {order other : List Entity} (h : order.Perm other) (text : List Char) :
    restored order text = restored other text := by
  refine h.foldl_eq' (fun first _ second _ text => ?_) text
  by_cases heq : first = second
  · rw [heq]
  · exact replaceAll_comm (isApart (Ne.symm heq)) (isApart heq) text

theorem restored_namedDashes (h : ∀ entity : Entity, ¬ entity.name <:+: text)
    {order : List Entity} (horder : order.Perm [emDash, enDash, ellipsis]) :
    restored order (namedDashes text) = text := by
  have hback : ∀ {text : List Char} (entity : Entity), ¬ entity.name <:+: text →
      replaceAll entity.name entity.meaning (replaceAll entity.meaning entity.name text) = text :=
    fun entity => replaceAll_replaceAll_name entity.meaning_ne_nil (by cases entity <;> decide)
  have hkeep : ∀ {text : List Char} {entity other : Entity}, entity ≠ other →
      ¬ entity.name <:+: text →
        ¬ entity.name <:+: replaceAll other.meaning other.name text :=
    fun hne => not_infix_replaceAll_name (isApart hne) (isApart hne.symm)
  -- The last entity that was put in is the first that is replaced back.
  have hreverse : order.Perm [ellipsis, enDash, emDash] := horder.trans (by decide)
  rw [restored_of_perm hreverse, namedDashes_eq]
  simp only [restored, List.foldl_cons, List.foldl_nil]
  rw [hback ellipsis (hkeep (by decide) (hkeep (by decide) (h ellipsis))),
    hback enDash (hkeep (by decide) (h enDash)), hback emDash (h emDash)]

end Back

section Runs

/-- What becomes of dashes that are too few for a long one. -/
def fewDashes : Nat → List Char
  | 0 => []
  | 1 => ['-']
  | _ => enDash.name

/-- What becomes of a longest run of dashes. -/
def dashes (count : Nat) : List Char :=
  (List.replicate (count / 3) emDash.name).flatten ++ fewDashes (count % 3)

/-- What becomes of a longest run of dots. -/
def dots (count : Nat) : List Char :=
  (List.replicate (count / 3) ellipsis.name).flatten ++ List.replicate (count % 3) '.'

/-- A run of a character that cannot be made longer on either side. -/
structure IsLongestRun (c : Char) (count : Nat) (before after : List Char) : Prop where
  pos : 0 < count
  before : before.getLast? ≠ some c
  after : after.head? ≠ some c

theorem not_infix_namedDashes (text : List Char) :
    ¬ "--".toList <:+: namedDashes text ∧ ¬ "...".toList <:+: namedDashes text := by
  have hdashes : ¬ enDash.meaning <:+: replaceAll enDash.meaning enDash.name
      (replaceAll emDash.meaning emDash.name text) :=
    not_infix_replaceAll (by decide) (by decide) (head_notMem (by decide))
      (head_notMem (by decide)) _
  have hdots : ¬ ellipsis.meaning <:+: namedDashes text :=
    not_infix_replaceAll (by decide) (by decide) (head_notMem (by decide))
      (head_notMem (by decide)) _
  refine ⟨fun hin => hdashes ?_, hdots⟩
  exact infix_of_infix_replaceAll (by decide) (by decide) (head_notMem (by decide)) (by decide)
    (head_notMem (by decide)) hin

theorem Entity.replaceAll_meaning_append (entity : Entity)
    (h : before.getLast? ≠ some entity.mark ∨ after.head? ≠ some entity.mark) :
    replaceAll entity.meaning entity.name (before ++ after) =
      replaceAll entity.meaning entity.name before ++
        replaceAll entity.meaning entity.name after :=
  replaceAll_replicate_append entity.size_pos h

/-- No entity brings a dash or a dot to a seam. -/
theorem Entity.seam_replaceAll (entity other : Entity)
    (h : before.getLast? ≠ some other.mark ∨ after.head? ≠ some other.mark) :
    (replaceAll entity.meaning entity.name before).getLast? ≠ some other.mark ∨
      (replaceAll entity.meaning entity.name after).head? ≠ some other.mark := by
  have hends : entity.name.getLast? ≠ some other.mark ∧ entity.name.head? ≠ some other.mark := by
    cases entity <;> cases other <;> decide
  exact h.imp
    (mt (getLast?_of_replaceAll entity.meaning_ne_nil (List.cons_ne_nil _ _) hends.1))
    (mt (head?_of_replaceAll entity.meaning_ne_nil (List.cons_ne_nil _ _) hends.2))

/-- Only a run of dashes or of dots goes across the seam of two texts. -/
theorem namedDashes_append
    (h : ∀ entity : Entity, before.getLast? ≠ some entity.mark ∨ after.head? ≠ some entity.mark) :
    namedDashes (before ++ after) = namedDashes before ++ namedDashes after := by
  have hdash := emDash.seam_replaceAll enDash (h enDash)
  have hdot := enDash.seam_replaceAll ellipsis (emDash.seam_replaceAll ellipsis (h ellipsis))
  rw [namedDashes_eq, emDash.replaceAll_meaning_append (h emDash),
    enDash.replaceAll_meaning_append hdash, ellipsis.replaceAll_meaning_append hdot,
    ← namedDashes_eq, ← namedDashes_eq]

theorem namedDashes_run {c : Char} {count : Nat} (h : IsLongestRun c count before after) :
    namedDashes (before ++ List.replicate count c ++ after) =
      namedDashes before ++ namedDashes (List.replicate count c) ++ namedDashes after := by
  obtain ⟨more, rfl⟩ := Nat.exists_eq_add_one.mpr h.pos
  have hends : (List.replicate (more + 1) c).head? = some c ∧
      (List.replicate (more + 1) c).getLast? = some c := by
    rw [List.head?_replicate, List.getLast?_replicate]
    simp
  have hleft : ∀ entity : Entity, before.getLast? ≠ some entity.mark ∨
      (List.replicate (more + 1) c).head? ≠ some entity.mark := by
    intro entity
    rw [hends.1]
    by_cases heq : c = entity.mark
    · exact .inl (heq ▸ h.before)
    · exact .inr (by simpa using heq)
  have hright : ∀ entity : Entity,
      (before ++ List.replicate (more + 1) c).getLast? ≠ some entity.mark ∨
        after.head? ≠ some entity.mark := by
    intro entity
    rw [List.getLast?_append, hends.2, Option.some_or]
    by_cases heq : c = entity.mark
    · exact .inr (heq ▸ h.after)
    · exact .inl (by simpa using heq)
  rw [namedDashes_append hright, namedDashes_append hleft]

theorem notMem_flatten_replicate {c : Char} {entity : Entity} (hc : c ∉ entity.name)
    (count : Nat) : c ∉ (List.replicate count entity.name).flatten := by
  intro hmem
  obtain ⟨part, hpart, hin⟩ := List.mem_flatten.mp hmem
  exact hc (List.eq_of_mem_replicate hpart ▸ hin)

theorem namedDashes_replicate_dash (count : Nat) :
    namedDashes (List.replicate count '-') = dashes count := by
  have hlong : replaceAll emDash.meaning emDash.name (List.replicate count '-') =
      (List.replicate (count / 3) emDash.name).flatten ++ List.replicate (count % 3) '-' :=
    replaceAll_replicate emDash.size_pos count
  have hplain : '-' ∉ (List.replicate (count / 3) emDash.name).flatten :=
    notMem_flatten_replicate (by decide) (count / 3)
  have hseam : (List.replicate (count / 3) emDash.name).flatten.getLast? ≠ some enDash.mark :=
    fun hlast => hplain (List.mem_of_getLast? hlast)
  have hfew : ∀ few < 3, replaceAll enDash.meaning enDash.name (List.replicate few '-') =
      fewDashes few ∧ '.' ∉ fewDashes few := by decide
  have hrest := hfew (count % 3) (Nat.mod_lt count (by decide))
  have hdots : '.' ∉ dashes count := by
    rw [dashes, List.mem_append, not_or]
    exact ⟨notMem_flatten_replicate (by decide) _, hrest.2⟩
  rw [namedDashes_eq, hlong, enDash.replaceAll_meaning_append (.inl hseam), hrest.1,
    replaceAll_of_notMem (c := '-') (by decide) hplain]
  exact replaceAll_of_notMem (by decide) hdots

theorem namedDashes_of_dash_notMem (h : '-' ∉ text) :
    namedDashes text = replaceAll ellipsis.meaning ellipsis.name text := by
  rw [namedDashes_eq, replaceAll_of_notMem (c := '-') (by decide) h,
    replaceAll_of_notMem (c := '-') (by decide) h]

theorem namedDashes_replicate_dot (count : Nat) :
    namedDashes (List.replicate count '.') = dots count := by
  rw [namedDashes_of_dash_notMem (by simp)]
  exact replaceAll_replicate ellipsis.size_pos count

end Runs

section Escapes

/-- Characters that are not active and make no character before them so. -/
def isQuiet (c : Char) : Bool :=
  !(activeMarks ++ ['!', '[']).contains c

variable {pattern replacement : List Char}

theorem isActive_congr {previous next other : Option Char} {c : Char}
    (h : next = some '[' ↔ other = some '[') :
    isActive previous c next = isActive previous c other := by
  rw [isActive, isActive, beq_eq_beq.mpr h]

theorem isActive_of_isQuiet {c : Char} (h : isQuiet c = true) (next : Option Char) :
    isActive none c next = false := by
  have hc : c ∉ activeMarks ∧ c ≠ '!' := by
    simp only [isQuiet, Bool.not_eq_true', List.contains_eq_mem, decide_eq_false_iff_not,
      List.mem_append, List.mem_cons, not_or] at h
    exact ⟨h.1, h.2.1⟩
  exact isActive_of_inert hc.1 (fun heq => absurd heq hc.2) (by decide)

theorem escapeMarks_append_of_isQuiet (h : ∀ c ∈ before, isQuiet c = true) (after : List Char) :
    escapeMarks (before ++ after) = before ++ escapeMarks after := by
  induction before with
  | nil => rfl
  | cons c before ih =>
      obtain ⟨hc, hbefore⟩ := List.forall_mem_cons.mp h
      rw [List.cons_append, escapeMarks, isActive_of_isQuiet hc, ih hbefore]
      rfl

variable (hpattern : ∀ c ∈ pattern, isQuiet c = true)
include hpattern

theorem notMem_of_isActive {c : Char} {next : Option Char} (h : isActive none c next = true) :
    c ∉ pattern := fun hmem => by
  rw [isActive_of_isQuiet (hpattern c hmem)] at h
  cases h

theorem prefix_of_prefix_escapeMarks (h : pattern <+: escapeMarks text) : pattern <+: text := by
  induction text generalizing pattern with
  | nil => exact h
  | cons c text ih =>
      cases pattern with
      | nil => exact List.nil_prefix
      | cons p pattern =>
          obtain ⟨hp, hrest⟩ := List.forall_mem_cons.mp hpattern
          rw [escapeMarks] at h
          cases hactive : isActive none c text.head? with
          | true =>
              rw [hactive, if_pos rfl] at h
              obtain ⟨rfl, _⟩ := List.cons_prefix_cons.mp h
              cases hp
          | false =>
              rw [hactive] at h
              obtain ⟨rfl, hmore⟩ := List.cons_prefix_cons.mp h
              exact List.cons_prefix_cons.mpr ⟨rfl, ih hrest hmore⟩

/-- Quiet replacements are made in an escaped text as in the text itself. -/
theorem replaceAll_escapeMarks (hne : pattern ≠ []) (hr : replacement ≠ [])
    (hreplacement : ∀ c ∈ replacement, isQuiet c = true) (text : List Char) :
    replaceAll pattern replacement (escapeMarks text) =
      escapeMarks (replaceAll pattern replacement text) := by
  induction text using replace_induction hne with
  | nil => rfl
  | cons c text hdrop ih =>
      have hbracket : ∀ {part : List Char}, (∀ c ∈ part, isQuiet c = true) → '[' ∉ part :=
        fun hpart hmem => by cases hpart _ hmem
      have hhead : isActive none c (replaceAll pattern replacement text).head? =
          isActive none c text.head? :=
        isActive_congr (head?_replaceAll_eq_some_iff (hbracket hpattern) hne hr
          (hbracket hreplacement) text)
      rw [replaceAll_cons hdrop, escapeMarks, escapeMarks, hhead, ← ih]
      cases hactive : isActive none c text.head? with
      | true =>
          have hc : c ∉ pattern := notMem_of_isActive hpattern hactive
          have hback : '\\' ∉ pattern := fun hmem => by cases hpattern _ hmem
          exact (replaceAll_cons (dropStart?_cons_of_notMem hne hback _)).trans
            (congrArg _ (replaceAll_cons (dropStart?_cons_of_notMem hne hc _)))
      | false =>
          refine replaceAll_cons (dropStart?_eq_none_iff.mpr fun hprefix => ?_)
          refine dropStart?_eq_none_iff.mp hdrop (prefix_of_prefix_escapeMarks hpattern ?_)
          rw [escapeMarks, hactive]
          exact hprefix
  | found rest ih =>
      rw [escapeMarks_append_of_isQuiet hpattern, replaceAll_pattern_append hne,
        replaceAll_pattern_append hne, escapeMarks_append_of_isQuiet hreplacement, ih]

end Escapes

theorem namedDashes_escape (text : List Char) :
    namedDashes (escape text) = escape (namedDashes text) := by
  have hquiet : ∀ (entity : Entity) (text : List Char),
      replaceAll entity.meaning entity.name (escapeMarks text) =
        escapeMarks (replaceAll entity.meaning entity.name text) := by
    intro entity text
    have hmeaning : entity.meaning.all isQuiet = true := by cases entity <;> decide
    have hname : entity.name.all isQuiet = true := by cases entity <;> decide
    exact replaceAll_escapeMarks (List.all_eq_true.mp hmeaning) entity.meaning_ne_nil
      (List.cons_ne_nil _ _) (List.all_eq_true.mp hname) text
  rw [escape_eq_guardHashes, escape_eq_guardHashes, namedDashes_guardHashes, namedDashes_eq,
    hquiet, hquiet, hquiet]
  rfl

/-- What is made of the dashes and dots of a text. -/
structure NamesDashes (text output : List Char) : Prop where
  no_dashes : ¬ "--".toList <:+: output
  no_dots : ¬ "...".toList <:+: output
  dash_runs : ∀ before count after, text = before ++ List.replicate count '-' ++ after →
    IsLongestRun '-' count before after →
      output = namedDashes before ++ dashes count ++ namedDashes after
  dot_runs : ∀ before count after, text = before ++ List.replicate count '.' ++ after →
    IsLongestRun '.' count before after →
      output = namedDashes before ++ dots count ++ namedDashes after
  others : '-' ∉ text → '.' ∉ text → output = text
  taken_back : (∀ entity : Entity, ¬ entity.name <:+: text) →
    ∀ order : List Entity, order.Perm [emDash, enDash, ellipsis] → restored order output = text

/-- The longest runs of dashes and dots are replaced one by one, in a way that can be taken back,
and it makes no difference whether a text is escaped before or after. -/
theorem namesDashes_namedDashes (text : List Char) :
    NamesDashes text (namedDashes text) ∧
      namedDashes (escape text) = escape (namedDashes text) := by
  refine ⟨⟨(not_infix_namedDashes text).1, (not_infix_namedDashes text).2, ?_, ?_, ?_, ?_⟩,
    namedDashes_escape text⟩
  · rintro before count after rfl hrun
    rw [namedDashes_run hrun, namedDashes_replicate_dash]
  · rintro before count after rfl hrun
    rw [namedDashes_run hrun, namedDashes_replicate_dot]
  · intro hdash hdot
    rw [namedDashes_of_dash_notMem hdash, replaceAll_of_notMem (by decide) hdot]
  · exact fun hnone order horder => restored_namedDashes hnone horder

example : namedDashes "a----b-----c....".toList =
    "a&mdash;-b&mdash;&ndash;c&hellip;.".toList := by decide

end OutlineWiki.Markup
