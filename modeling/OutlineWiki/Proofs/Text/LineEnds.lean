import OutlineWiki.Markup.Spacing
import OutlineWiki.Proofs.Text.Ends

/-!
The end of a block.

All line ends at the end of a block are dropped, with the spaces and tabs after each of
them, and one newline takes their place. So what stands before it does not end a line, and
the lines that follow are those that the block has after it.
-/

namespace OutlineWiki.Markup

open OutlineWiki.Text

/-- The text ends its last line that is not empty, and a number of empty lines follow. -/
def EndsBlock (count : Nat) (text : List Char) : Prop :=
  ∃ body, text = body ++ '\n' :: List.replicate count '\n' ∧
    (dropTrailing isIndent body).getLast? ≠ some '\n'

variable {text before after : List Char}

theorem isLineEndBlank_of_dropLineEnds (h : ∀ c ∈ dropLineEnds text, isLineEndBlank c = true) :
    ∀ c ∈ text, isLineEndBlank c = true := by
  induction text with
  | nil => exact h
  | cons c text ih =>
      rw [dropLineEnds] at h
      split at h
      · next hends =>
          rw [Bool.and_eq_true, beq_iff_eq, List.all_eq_true] at hends
          obtain ⟨rfl, hrest⟩ := hends
          exact List.forall_mem_cons.mpr ⟨rfl, hrest⟩
      · obtain ⟨hc, hrest⟩ := List.forall_mem_cons.mp h
        exact List.forall_mem_cons.mpr ⟨hc, ih hrest⟩

/-- No newline is left that has only line ends, spaces and tabs after it. -/
theorem dropLineEnds_ne (hafter : ∀ c ∈ after, isLineEndBlank c = true) :
    dropLineEnds text ≠ before ++ '\n' :: after := by
  induction text generalizing before with
  | nil => exact (List.append_ne_nil_of_right_ne_nil _ (List.cons_ne_nil _ _)).symm
  | cons c text ih =>
      rw [dropLineEnds]
      split
      · exact (List.append_ne_nil_of_right_ne_nil _ (List.cons_ne_nil _ _)).symm
      · next hends =>
          intro heq
          cases before with
          | nil =>
              obtain ⟨rfl, hrest⟩ := List.cons.inj heq
              refine hends ?_
              rw [beq_self_eq_true, Bool.true_and, List.all_eq_true]
              exact isLineEndBlank_of_dropLineEnds (hrest ▸ hafter)
          | cons d before => exact ih (List.cons.inj heq).2

theorem getLast?_dropLineEnds (text : List Char) :
    (dropTrailing isIndent (dropLineEnds text)).getLast? ≠ some '\n' := by
  intro hlast
  obtain ⟨before, hbefore⟩ := List.getLast?_eq_some_iff.mp hlast
  obtain ⟨run, hrun, hindent⟩ := exists_trailing isIndent (dropLineEnds text)
  have hblank : ∀ c ∈ run, isLineEndBlank c = true := fun c hc => by
    rw [isLineEndBlank, hindent c hc, Bool.or_true]
  have heq : dropLineEnds text = before ++ '\n' :: run := by
    rw [hbefore, List.append_assoc] at hrun
    exact hrun
  exact dropLineEnds_ne hblank heq

theorem endsBlock_endLine (text : List Char) (count : Nat) :
    EndsBlock count (endLine text ++ List.replicate count '\n') := by
  refine ⟨dropLineEnds text, ?_, getLast?_dropLineEnds text⟩
  rw [endLine, List.append_assoc]
  rfl

theorem withSpace_eq_nil_iff {node : Node} {markup : List Char} :
    withSpace node markup = [] ↔ markup = [] := by
  constructor
  · intro h
    rw [withSpace] at h
    split at h
    · exact h
    · dsimp only at h
      split at h
      · simp [endLine] at h
      · exact (List.append_eq_nil_iff.mp h).1
  · rintro rfl
    rfl

theorem withSpace_of_isBlock {node : Node} (hb : node.kind.isBlock = true)
    (hd : node.kind.isDocument = false) {markup : List Char} (hm : markup ≠ []) :
    withSpace node markup =
      endLine markup ++ List.replicate (node.postBlank.getD 0).toNat '\n' := by
  have hshown : ¬ (markup.isEmpty || node.kind.isDocument) = true := by simpa [hd] using hm
  rw [withSpace, if_neg hshown]
  exact if_pos hb

theorem withSpace_of_inline {node : Node} (hblock : node.kind.isBlock = false)
    {markup : List Char} (hm : markup ≠ []) :
    withSpace node markup = markup ++ List.replicate (node.postBlank.getD 0).toNat ' ' := by
  have hdocument : node.kind.isDocument = false := by
    cases hkind : node.kind <;> simp_all [Kind.isBlock, Kind.isDocument]
  have hshown : ¬ (markup.isEmpty || node.kind.isDocument) = true := by simpa [hdocument] using hm
  rw [withSpace, if_neg hshown]
  simp [hblock]

theorem withSpace_endsBlock {node : Node} (hb : node.kind.isBlock = true)
    (hd : node.kind.isDocument = false) {markup : List Char} (hm : markup ≠ []) :
    EndsBlock (node.postBlank.getD 0).toNat (withSpace node markup) := by
  rw [withSpace_of_isBlock hb hd hm]
  exact endsBlock_endLine markup _

end OutlineWiki.Markup
