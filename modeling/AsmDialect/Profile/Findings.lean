import AsmDialect.Profile.Scan
/-!
# What the scans find

The scans stop early and change a profile on the way, but what they come to can be said without
following them. Main statements: `scanArm_eq` and `scanRegisters_eq` give each scan's result in
terms of which clues there are, wherever they stand and in whatever order.
-/

namespace AsmDialect.Profile

/-- The profile with the ARM findings of clues. -/
def withArm (p : Profile) (ks : List Clue) : Profile :=
  { p with
    isa := if ks.any Clue.tellsArm then .arm else p.isa
    vfp := p.vfp || ks.any (Clue.isOf .vfp) }

/-- The profile with the register findings of clues. -/
def withRegisters (p : Profile) (ks : List Clue) : Profile :=
  { p with
    dialect := if ks.any Clue.isMarked then .att else p.dialect
    width := p.width.widest (ks.filterMap Clue.width?) }

/-- **The ARM scan**: the code is ARM if it was before or if a load or store of ARM is found, and
uses VFP if it did before or if one of VFP is found. -/
theorem scanArm_eq (p : Profile) (ks : List Clue) :
    p.scanArm ks = (decide ((p.withArm ks).isa = .arm), p.withArm ks) := by
  induction ks generalizing p with
  | nil => simp [scanArm, withArm]
  | cons k ks ih =>
    cases k with
    | register r marked => simp [scanArm, ih, withArm, Clue.tellsArm, Clue.isOf]
    | mnemonic m => cases h : m.family <;> simp [scanArm, h, ih, withArm, Clue.tellsArm, Clue.isOf]

/-- **The register scan**: the notation is AT&T if it was before or if a marked name is found, and
the width is the widest of the one before and those of all names. The early stop leaves no trace,
because no width exceeds the one it stops at. -/
theorem scanRegisters_eq (p : Profile) (ks : List Clue) :
    p.scanRegisters ks = p.withRegisters ks := by
  induction ks generalizing p with
  | nil => simp [scanRegisters, withRegisters, OperandWidth.widest]
  | cons k ks ih =>
    cases k with
    | mnemonic m =>
      simp [scanRegisters, ih, withRegisters, Clue.isMarked, Clue.width?, List.filterMap_cons]
    | register r marked =>
      cases marked with
      | false =>
        simp [scanRegisters, ih, withRegisters, Clue.isMarked, Clue.width?, widen_eq,
          OperandWidth.widest]
      | true =>
        simp only [scanRegisters, ih]
        split
        next h =>
          simp only [widen_eq] at h
          simp [withRegisters, Clue.isMarked, Clue.width?, widen_eq, OperandWidth.widest, h]
          exact (OperandWidth.widest_qword _).symm
        next =>
          simp [withRegisters, Clue.isMarked, Clue.width?, widen_eq, OperandWidth.widest]

theorem any_vfp_eq_false {ks : List Clue} (h : ks.any Clue.tellsArm = false) :
    ks.any (Clue.isOf .vfp) = false := by
  simp only [List.any_eq_false, Clue.tellsArm, Bool.or_eq_true, not_or] at h ⊢
  exact fun k hk => (h k hk).2

/-- **The profile of clues**, finding by finding. -/
theorem ofClues_eq (ks : List Clue) :
    ofClues ks =
      if ks.any Clue.tellsArm then { isa := .arm, vfp := ks.any (Clue.isOf .vfp) }
      else
        { dialect := if ks.any Clue.isMarked then .att else .intel
          width := OperandWidth.word.widest (ks.filterMap Clue.width?)
          x87 := ks.any (Clue.isOf .x87) } := by
  unfold ofClues
  rw [scanArm_eq]
  cases h : ks.any Clue.tellsArm with
  | true => simp [withArm, h]
  | false =>
    simp only [withArm, h, any_vfp_eq_false h, scanRegisters_eq, withRegisters, scanX87]
    cases ks.any (Clue.isOf .x87) <;> rfl

end AsmDialect.Profile
