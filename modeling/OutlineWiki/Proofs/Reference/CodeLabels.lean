import OutlineWiki.Export
import OutlineWiki.Outline.Build
import OutlineWiki.Proofs.Outline.Surfaces
import OutlineWiki.Proofs.Text.Ends
import OutlineWiki.Proofs.Text.Occurrence

/-!
Labels that are hidden and labels that can be referred to.

A literal block is shown without the markers at the ends of its lines, whatever its kind.
A survey finds the labels of source and example blocks alone. So a reference to a hidden
label is resolved, unless only fixed-width text hides the label.
-/

namespace OutlineWiki

open Text

namespace CodeLabel

/-- What marks a line with a label. -/
def marker (label : List Char) : List Char :=
  opening ++ label ++ [')']

/-- A line is shown without the marker of the label, which stands at its end. -/
def Hides (line label : List Char) : Prop :=
  ∃ code, trimEnd line = code ++ marker label ∧ strip line = trimEnd code

variable {line label code : List Char}

theorem eq_append_of_split? (h : split? line = some (code, label)) :
    trimEnd line = code ++ marker label := by
  rw [split?] at h
  split at h
  · cases h
  · next before rest hlast =>
      split at h
      · cases h
      · next found hend =>
          split at h
          · cases h
            rw [eq_append_of_splitLast? hlast, eq_append_of_dropEnd? hend, marker]
            simp only [List.append_assoc]
          · cases h

/-- Of two texts before markers that end one line, the longer one is left longer by trimming:
it holds the bracket that opens the marker after the other one. -/
theorem length_trimEnd_lt {other otherLabel : List Char}
    (h : code ++ marker label = other ++ marker otherLabel) (hlength : code.length < other.length) :
    (trimEnd code).length < (trimEnd other).length := by
  have hcode : code <+: other := List.prefix_of_prefix_length_le ⟨_, rfl⟩ ⟨_, h.symm⟩ hlength.le
  obtain ⟨more, rfl⟩ := hcode
  have hmore : more ≠ [] := by
    rintro rfl
    simp at hlength
  obtain ⟨c, more, rfl⟩ := List.exists_cons_of_ne_nil hmore
  have hc : c = '(' := by
    rw [List.append_assoc, List.append_cancel_left_eq] at h
    exact (List.cons.inj h).1.symm
  have hshort : (trimEnd code).length ≤ code.length := length_dropTrailing_le isBlank code
  have hlong : trimEnd (code ++ '(' :: more) = code ++ '(' :: trimEnd more :=
    dropTrailing_append_cons (by decide) code more
  rw [hc, hlong, List.length_append, List.length_cons]
  omega

/-- A line is shown without a marker exactly when the line is labelled. -/
theorem hides_iff : Hides line label ↔ ofLine? line = some label := by
  rw [ofLine?, Option.map_eq_some_iff]
  constructor
  · rintro ⟨code, hline, hstrip⟩
    rw [strip] at hstrip
    cases hsplit : split? line with
    | none =>
        -- A line that is shown whole is longer than what stands before a marker in it.
        simp only [hsplit] at hstrip
        have hline' := congrArg List.length hline
        have htrim : (trimEnd line).length ≤ line.length := length_dropTrailing_le isBlank line
        have hcode : (trimEnd code).length ≤ code.length := length_dropTrailing_le isBlank code
        rw [← hstrip] at hcode
        simp only [marker, opening, List.length_append, List.length_singleton] at hline'
        omega
    | some found =>
        obtain ⟨other, otherLabel⟩ := found
        simp only [hsplit] at hstrip
        have heq : code ++ marker label = other ++ marker otherLabel :=
          hline.symm.trans (eq_append_of_split? hsplit)
        have hlength : code.length = other.length := by
          have hsame := congrArg List.length hstrip
          have hlt := fun h => length_trimEnd_lt heq h
          have hgt := fun h => length_trimEnd_lt heq.symm h
          omega
        obtain ⟨rfl, hmarker⟩ := List.append_inj heq hlength
        have hlabel : label = otherLabel := by simpa [marker] using hmarker
        exact ⟨_, rfl, hlabel.symm⟩
  · rintro ⟨⟨code, found⟩, hsplit, rfl⟩
    exact ⟨code, eq_append_of_split? hsplit, by rw [strip, hsplit]⟩

theorem mem_ofLines_iff (rows : List (List Char)) (number : Nat) :
    label ∈ (ofLines number rows).map (·.1) ↔ ∃ line ∈ rows, Hides line label := by
  induction rows generalizing number with
  | nil => simp [ofLines]
  | cons line rows ih =>
      have hrest := ih (number + 1)
      simp only [List.mem_cons, exists_eq_or_imp, hides_iff] at hrest ⊢
      rw [← hrest, ofLines]
      cases ofLine? line with
      | none => simp
      | some found => simp [eq_comm]

/-- Each label is found on the line with its number. -/
theorem exists_line_of_mem_ofLines {rows : List (List Char)} {number : Nat}
    {entry : List Char × Nat} (h : entry ∈ ofLines number rows) :
    ∃ place line, entry.2 = number + place ∧ rows[place]? = some line ∧
      ofLine? line = some entry.1 := by
  induction rows generalizing number with
  | nil => cases h
  | cons line rows ih =>
      have hlater : entry ∈ ofLines (number + 1) rows →
          ∃ place other, entry.2 = number + place ∧ (line :: rows)[place]? = some other ∧
            ofLine? other = some entry.1 := by
        intro hrest
        obtain ⟨place, other, hnumber, hother, hlabel⟩ := ih hrest
        exact ⟨place + 1, other, by omega, hother, hlabel⟩
      rw [ofLines] at h
      cases hlabel : ofLine? line with
      | none =>
          rw [hlabel] at h
          exact hlater h
      | some label =>
          rw [hlabel] at h
          obtain rfl | hrest := List.mem_cons.mp h
          · exact ⟨0, line, rfl, rfl, hlabel⟩
          · exact hlater hrest

end CodeLabel

namespace Kind

variable {α β : Type}

/-- The text of a block that is shown line by line. -/
def literalText? : Kind α → Option (List Char)
  | exampleBlock value | sourceBlock _ value _ | fixedWidth value => some value.toList
  | _ => none

def isFixedWidth : Kind α → Bool
  | fixedWidth _ => true
  | _ => false

theorem literalText?_bare (kind : Kind α) :
    (kind.bare : Kind β).literalText? = kind.literalText? := by
  cases kind <;> rfl

theorem isFixedWidth_bare (kind : Kind α) :
    (kind.bare : Kind β).isFixedWidth = kind.isFixedWidth := by
  cases kind <;> rfl

end Kind

namespace Node

/-- The block is shown without a marker of the label that its text holds. -/
def HidesLabel (node : Node) (label : List Char) : Prop :=
  ∃ value, node.kind.literalText? = some value ∧ ∃ line ∈ lines value, CodeLabel.Hides line label

theorem hidesLabel_congr {node other : Node} (h : node.surface = other.surface)
    (label : List Char) : node.HidesLabel label ↔ other.HidesLabel label := by
  have hkind : node.kind.literalText? = other.kind.literalText? := by
    rw [← Kind.literalText?_bare (β := Unit), ← Kind.literalText?_bare (β := Unit) other.kind]
    exact congrArg (·.kind.literalText?) h
  rw [HidesLabel, HidesLabel, hkind]

theorem isFixedWidth_congr {node other : Node} (h : node.surface = other.surface) :
    node.kind.isFixedWidth = other.kind.isFixedWidth := by
  rw [← Kind.isFixedWidth_bare (β := Unit), ← Kind.isFixedWidth_bare (β := Unit) other.kind]
  exact congrArg (·.kind.isFixedWidth) h

/-- A node of the same surface stands in the prepared tree for each node of the tree. -/
theorem exists_mem_walk_prepare_iff {root : Node} {P : Node → Prop}
    (h : ∀ node other : Node, node.surface = other.surface → P node → P other) :
    (∃ node ∈ root.prepare.walk, P node) ↔ ∃ node ∈ root.walk, P node := by
  have hwalk := walk_surface_prepare root
  constructor
  · rintro ⟨node, hn, hp⟩
    have hmem : node.surface ∈ root.walk.map surface := hwalk ▸ List.mem_map_of_mem hn
    obtain ⟨other, ho, heq⟩ := List.mem_map.mp hmem
    exact ⟨other, ho, h node other heq.symm hp⟩
  · rintro ⟨node, hn, hp⟩
    have hmem : node.surface ∈ root.prepare.walk.map surface := hwalk ▸ List.mem_map_of_mem hn
    obtain ⟨other, ho, heq⟩ := List.mem_map.mp hmem
    exact ⟨other, ho, h node other heq.symm hp⟩

theorem exists_labelledLine_iff (node : Node) (label : List Char) :
    (∃ line ∈ node.labelledLines, line.label = label) ↔
      node.kind.isFixedWidth = false ∧ node.HidesLabel label := by
  have hlabels : ∀ (value : List Char) (isNumbered : Bool),
      (∃ line ∈ (CodeLabel.ofLines 1 (lines value)).map fun entry =>
        (⟨entry.1, entry.2, isNumbered⟩ : LabelledLine), line.label = label) ↔
      ∃ line ∈ lines value, CodeLabel.Hides line label := by
    intro value isNumbered
    rw [← CodeLabel.mem_ofLines_iff _ 1]
    simp
  rw [labelledLines, labelledCode?, HidesLabel]
  cases node.kind with
  | exampleBlock value => simpa [Kind.literalText?, Kind.isFixedWidth] using hlabels _ false
  | sourceBlock language value numberLines =>
      simpa [Kind.literalText?, Kind.isFixedWidth] using hlabels _ numberLines
  | fixedWidth value => simp [Kind.isFixedWidth]
  | _ => simp [Kind.literalText?]

end Node

namespace Survey

variable (root : Node) (options : Options) (externalIds : List (String × String))

theorem codeReference_isSome_iff (label : List Char) (description : Option (List Char)) :
    ((ofTree root.prepare options externalIds).codeReference label description).isSome = true ↔
      ∃ node ∈ root.walk, node.kind.isFixedWidth = false ∧ node.HidesLabel label := by
  have hkeep : ∀ node other : Node, node.surface = other.surface →
      (node.kind.isFixedWidth = false ∧ node.HidesLabel label) →
        other.kind.isFixedWidth = false ∧ other.HidesLabel label := by
    intro node other h hnode
    rwa [← Node.isFixedWidth_congr h, ← Node.hidesLabel_congr h]
  rw [← Node.exists_mem_walk_prepare_iff hkeep, codeReference, Option.isSome_map,
    List.find?_isSome]
  simp only [← Node.exists_labelledLine_iff, ofTree, List.mem_flatMap, beq_iff_eq]
  constructor
  · rintro ⟨line, ⟨node, hn, hline⟩, hlabel⟩
    exact ⟨node, hn, line, hline, hlabel⟩
  · rintro ⟨node, hn, line, hline, hlabel⟩
    exact ⟨line, ⟨node, hn, hline⟩, hlabel⟩

/-- References are resolved to the hidden labels of all blocks but fixed-width text. So the
labels that are hidden are those that can be referred to exactly when each label that
fixed-width text hides is hidden by another block as well. -/
theorem codeReference_hidden :
    let host := (ofTree root.prepare options externalIds).host
    (∀ node ∈ root.walk, ∀ value, node.kind.literalText? = some value →
      ∀ context render contents,
        Markup.format context render node contents = pure (Markup.literalBlock value)) ∧
    (∀ label description, (host.codeReference label description).isSome = true ↔
      ∃ node ∈ root.walk, node.kind.isFixedWidth = false ∧ node.HidesLabel label) ∧
    ((∀ label description, (host.codeReference label description).isSome = true ↔
        ∃ node ∈ root.walk, node.HidesLabel label) ↔
      ∀ node ∈ root.walk, node.kind.isFixedWidth = true → ∀ label, node.HidesLabel label →
        ∃ other ∈ root.walk, other.kind.isFixedWidth = false ∧ other.HidesLabel label) := by
  intro host
  have hresolves := codeReference_isSome_iff root options externalIds
  refine ⟨fun node _ value hvalue context render contents => ?_, hresolves, ?_⟩
  · rw [Markup.format]
    cases kind : node.kind <;> simp_all [Kind.literalText?]
  · constructor
    · intro h node hn _ label hhides
      exact (hresolves label none).mp ((h label none).mpr ⟨node, hn, hhides⟩)
    · intro h label description
      refine (hresolves label description).trans ⟨?_, ?_⟩
      · rintro ⟨node, hn, _, hhides⟩
        exact ⟨node, hn, hhides⟩
      · rintro ⟨node, hn, hhides⟩
        cases hfixed : node.kind.isFixedWidth with
        | false => exact ⟨node, hn, hfixed, hhides⟩
        | true => exact h node hn hfixed label hhides

-- Fixed-width text is shown without its marker, and the label leads nowhere.
example :
    let root := Node.document [Node.ofKind (.fixedWidth "x = 1 (ref:init)") []]
    root.bodyMarkup? {} = some "    x = 1\n\n".toList ∧
      (ofTree root.prepare {} []).codeReference "init".toList none = none := by
  decide +kernel

end Survey

end OutlineWiki
