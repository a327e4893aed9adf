import OutlineWiki.Proofs.Reference.CodeLabels
import OutlineWiki.Proofs.Text.Template

/-!
Descriptions of links to lines of code.

A link shows its description with the number or label of a line in the place where the
description mentions the label. The description is made into a template for that, but its own
percent signs are not doubled. So it comes through unchanged exactly when it holds nothing that
a template would replace.
-/

namespace OutlineWiki

open Text

namespace CodeLabel

theorem isLabel_of_split? {line code label : List Char} (h : split? line = some (code, label)) :
    isLabel label = true := by
  rw [split?] at h
  split at h
  · cases h
  · split at h
    · cases h
    · split at h
      · next hlabel =>
          cases h
          exact hlabel
      · cases h

theorem isLabel_of_hides {line label : List Char} (h : Hides line label) :
    isLabel label = true := by
  obtain ⟨⟨code, found⟩, hsplit, rfl⟩ := Option.map_eq_some_iff.mp (hides_iff.mp h)
  exact isLabel_of_split? hsplit

theorem ne_nil_of_isLabel {label : List Char} (h : isLabel label = true) : label ≠ [] := by
  rintro rfl
  exact absurd h (by decide)

theorem solid_of_isLabel {label : List Char} (h : isLabel label = true) :
    ∀ c ∈ label, isBlank c = false := by
  intro c hc
  rw [isLabel, Bool.and_eq_true, Bool.not_eq_true', Bool.not_eq_true', List.any_eq_false] at h
  exact Bool.eq_false_iff.mpr (h.2 c hc)

end CodeLabel

/-- The number of the line or its label, as links to the line show it. -/
def LabelledLine.reference (line : LabelledLine) : List Char :=
  if line.isNumbered then digits line.line else line.label

namespace Survey

/-- A label as descriptions mention it. -/
def bracketed (label : List Char) : List Char :=
  '(' :: label ++ [')']

variable {label description before after : List Char}

theorem codeTemplate_bracketed (h : FirstAt (bracketed label) before after description) :
    codeTemplate label (some description) = before ++ "%s".toList ++ after := by
  have hin : contains (bracketed label) description = true :=
    contains_eq_true_iff.mpr ⟨before, after, h.parts.symm⟩
  exact (if_pos hin).trans (h.replaceFirst_eq _)

theorem codeTemplate_bare (hnot : ¬ bracketed label <:+: description)
    (h : FirstAt label before after description) :
    codeTemplate label (some description) = before ++ "%s".toList ++ after := by
  have hin : ¬ contains (bracketed label) description = true :=
    mt contains_eq_true_iff.mp hnot
  exact (if_neg hin).trans (h.replaceFirst_eq _)

theorem isLabel_of_labelledLine {node : Node} (h : ∃ line ∈ node.labelledLines, line.label = label) :
    CodeLabel.isLabel label = true := by
  obtain ⟨_, _, _, _, _, hhides⟩ := (Node.exists_labelledLine_iff node label).mp h
  exact CodeLabel.isLabel_of_hides hhides

/-- A label of the document is resolved to a line with this label, whatever the description. -/
theorem exists_labelledLine {root : Node} (options : Options)
    (externalIds : List (String × String))
    (h : ∃ node ∈ root.prepare.walk, ∃ line ∈ node.labelledLines, line.label = label) :
    let survey := ofTree root.prepare options externalIds
    ∃ line ∈ survey.labelledLines, line.label = label ∧ line.reference ≠ [] ∧
      ∀ description, survey.codeReference label description =
        some (codeTemplate label description, line.reference) := by
  intro survey
  obtain ⟨node, hn, hline⟩ := h
  have hlabel := CodeLabel.ne_nil_of_isLabel (isLabel_of_labelledLine hline)
  obtain ⟨line, hmem, heq⟩ := hline
  have hfound : (survey.labelledLines.find? fun line => line.label == label).isSome = true :=
    List.find?_isSome.mpr ⟨line, List.mem_flatMap.mpr ⟨node, hn, hmem⟩, beq_iff_eq.mpr heq⟩
  obtain ⟨found, hfind⟩ := Option.isSome_iff_exists.mp hfound
  have hfoundLabel : found.label = label := by simpa using List.find?_some hfind
  refine ⟨found, List.mem_of_find?_eq_some hfind, hfoundLabel, ?_, fun description => ?_⟩
  · rw [LabelledLine.reference]
    split
    · exact Nat.toDigits_ne_nil
    · rwa [hfoundLabel]
  · rw [codeReference, hfind, LabelledLine.reference, hfoundLabel]
    rfl

theorem exists_codeReference {root : Node} (options : Options)
    (externalIds : List (String × String))
    (h : ∃ node ∈ root.prepare.walk, ∃ line ∈ node.labelledLines, line.label = label)
    (description : List Char) :
    ∃ value, value ≠ [] ∧
      (ofTree root.prepare options externalIds).codeReference label (some description) =
        some (codeTemplate label (some description), value) := by
  obtain ⟨line, _, _, hvalue, hanswer⟩ := exists_labelledLine options externalIds h
  exact ⟨line.reference, hvalue, hanswer (some description)⟩

/-- A description with a mention of a label is shown with the number or label of the line in
the place of the mention exactly when the rest of it holds no mark of a template, and no
percent sign stands just before the mention. -/
theorem fill_codeReference {root : Node} (options : Options)
    (externalIds : List (String × String))
    (h : ∃ node ∈ root.prepare.walk, ∃ line ∈ node.labelledLines, line.label = label)
    (description : List Char) :
    let host := (ofTree root.prepare options externalIds).host
    ∃ template value, host.codeReference label (some description) = some (template, value) ∧
      (∀ before after, FirstAt (bracketed label) before after description →
        (fill template [value] = before ++ value ++ after ↔
          IsLiteral before ∧ IsLiteral after ∧ (before.getLast? = some '%' → value = ['s']))) ∧
      (¬ bracketed label <:+: description →
        ∀ before after, FirstAt label before after description →
          (fill template [value] = before ++ value ++ after ↔
            IsLiteral before ∧ IsLiteral after ∧
              (before.getLast? = some '%' → value = ['s']))) := by
  intro host
  obtain ⟨value, hvalue, hanswer⟩ := exists_codeReference options externalIds h description
  refine ⟨_, value, hanswer, fun before after hfirst => ?_, fun hnot before after hfirst => ?_⟩
  · rw [codeTemplate_bracketed hfirst]
    exact fill_placeholder_eq_iff hvalue
  · rw [codeTemplate_bare hnot hfirst]
    exact fill_placeholder_eq_iff hvalue

end Survey

section

open Node (document ofKind)

/-- A block with one labelled line. -/
def Node.labelledBlock : Node :=
  document [ofKind (.exampleBlock "x (ref:a)") []]

theorem fill_codeReference_doubled :
    let host := (Survey.ofTree Node.labelledBlock.prepare {} []).host
    (∃ node ∈ Node.labelledBlock.prepare.walk, ∃ line ∈ node.labelledLines,
      line.label = "a".toList) ∧
    ∃ template value,
      host.codeReference "a".toList (some "100%% (a)".toList) = some (template, value) ∧
        fill template [value] ≠ "100%% ".toList ++ value := by
  intro host
  have hlabel : ∃ node ∈ Node.labelledBlock.prepare.walk, ∃ line ∈ node.labelledLines,
      line.label = "a".toList := by
    decide +kernel
  obtain ⟨template, value, hanswer, hbracketed, _⟩ :=
    Survey.fill_codeReference {} [] hlabel "100%% (a)".toList
  refine ⟨hlabel, template, value, hanswer, fun heq => ?_⟩
  have hfirst : FirstAt (Survey.bracketed "a".toList) "100%% ".toList [] "100%% (a)".toList :=
    splitFirst?_eq_some_iff.mp (by decide)
  have hliteral := (hbracketed _ _ hfirst).mp (by rw [heq, List.append_nil])
  exact absurd hliteral.1 (by decide)

end

end OutlineWiki
