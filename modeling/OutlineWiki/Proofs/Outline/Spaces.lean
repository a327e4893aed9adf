import OutlineWiki.Proofs.Outline.Places
import OutlineWiki.Proofs.Outline.Renaming

/-!
Blank lines in a prepared tree.

Every block below the root has at least one blank line after it, unless it is laid out line
by line.
-/

namespace OutlineWiki
namespace Node

/-- A block that is not laid out line by line has a blank line after it. -/
def IsSeparated (node : Node) : Prop :=
  node.isSpaced = true → ∃ count, node.postBlank = some count ∧ 1 ≤ count

theorem isSeparated_transform (node : Node) :
    ∀ inner ∈ (node.transform spaced).walk, inner.IsSeparated := by
  induction node using member_induction with
  | step node ih =>
      intro inner hinner
      rw [walk_eq, List.mem_cons, List.mem_flatMap] at hinner
      obtain rfl | ⟨member, hm, hin⟩ := hinner
      · intro hspaced
        have hnode : node.isSpaced = true := by
          rw [transform_spaced_eq] at hspaced
          exact (isSpaced_withParts_map _ node).symm.trans hspaced
        refine ⟨max (node.postBlank.getD 0) 1, ?_, ?_⟩
        · rw [transform_spaced_eq, spaceAfter, if_pos hnode]
        · rw [UInt32.le_iff_toNat_le, UInt32.toNat_max]
          exact Nat.le_max_right _ _
      · rw [members, transform_eq, parts_spaced] at hm
        change member ∈ (node.parts.map (transform spaced)).members at hm
        rw [Parts.members_map] at hm
        obtain ⟨original, ho, rfl⟩ := List.mem_map.mp hm
        exact ih original ho inner hin

/-- What separation looks at, and sees to. -/
def spacing (node : Node) : Bool × Option UInt32 :=
  (node.isSpaced, node.postBlank)

theorem spacing_numberFrom (node : Node) (next : Nat) :
    (node.numberFrom next).1.spacing = node.spacing := by
  have hkind : (node.numberFrom next).1.kind.bare = (node.kind.bare : Kind Unit) :=
    congrArg Surface.kind (surface_numberFrom node next)
  have hblock := congrArg Kind.isBlock hkind
  have hline := congrArg Kind.isLine hkind
  rw [Kind.isBlock_bare, Kind.isBlock_bare] at hblock
  rw [Kind.isLine_bare, Kind.isLine_bare] at hline
  rw [spacing, spacing, isSpaced_of_kind hblock hline, (numberFrom_rest node next).1]

/-- Preparation separates all blocks below the root. -/
theorem isSeparated_of_mem_descendants_prepare {root inner : Node}
    (h : inner ∈ root.prepare.descendants) : inner.IsSeparated := by
  have hwalk : root.prepare.walk.map spacing = root.separateBlocks.walk.map spacing :=
    walk_map_numberFrom spacing_numberFrom root.separateBlocks 0
  rw [walk_eq_cons_descendants, walk_eq_cons_descendants, List.map_cons, List.map_cons] at hwalk
  have hmem : inner.spacing ∈ root.separateBlocks.descendants.map spacing :=
    (List.cons.inj hwalk).2 ▸ List.mem_map_of_mem h
  obtain ⟨original, ho, heq⟩ := List.mem_map.mp hmem
  have hseparated : original.IsSeparated := by
    obtain ⟨member, hm, hin⟩ := List.mem_flatMap.mp ho
    change member ∈ (root.parts.map (transform spaced)).members at hm
    rw [Parts.members_map] at hm
    obtain ⟨top, _, rfl⟩ := List.mem_map.mp hm
    exact isSeparated_transform top original hin
  obtain ⟨hspaced, hblank⟩ := Prod.mk.inj heq
  intro hinner
  obtain ⟨count, hcount, hle⟩ := hseparated (hspaced.trans hinner)
  exact ⟨count, hblank.symm.trans hcount, hle⟩

end Node
end OutlineWiki
