import AsmDialect.Profile.Findings
/-!
# Profiles of parts

A source may be read in parts and the profiles of the parts joined. ARM code in one part makes the
whole ARM code, and what was found of x86 in the other part is given up; else the findings are put
together. Main statement: the profile of clues in two parts is the join of the two profiles
(`ofClues_append`).
-/

namespace AsmDialect.Profile

/-- What the profiles of two parts come to. -/
def join (p q : Profile) : Profile :=
  if p.isa = .arm ∨ q.isa = .arm then { isa := .arm, vfp := p.vfp || q.vfp }
  else
    { isa := .x86
      vfp := false
      dialect := if p.dialect = .att ∨ q.dialect = .att then .att else .intel
      width := max p.width q.width
      x87 := p.x87 || q.x87 }

/-- Whether a profile says no more than another: joined to it, it adds nothing. -/
def Below (p q : Profile) : Prop := p.join q = q

/-- Whether a profile holds findings on its own instruction set alone. -/
def Settled (p : Profile) : Prop :=
  (p.isa = .arm → p.dialect = .intel ∧ p.width = .word ∧ p.x87 = false) ∧
    (p.isa = .x86 → p.vfp = false)

instance (p q : Profile) : Decidable (p.Below q) := inferInstanceAs (Decidable (_ = _))

instance (p : Profile) : Decidable p.Settled := inferInstanceAs (Decidable (_ ∧ _))

/-! ## Findings in two parts -/

theorem widest_append (w : OperandWidth) (us vs : List OperandWidth) :
    w.widest (us ++ vs) = max (w.widest us) (OperandWidth.word.widest vs) := by
  have h (v w : OperandWidth) (us : List OperandWidth) :
      (max v w).widest us = max v (w.widest us) := by
    induction us generalizing w with
    | nil => rfl
    | cons u us ih =>
      simp only [OperandWidth.widest, List.foldl_cons, OperandWidth.max_assoc] at ih ⊢
      exact ih (max w u)
  rw [OperandWidth.widest, List.foldl_append, ← OperandWidth.widest, ← OperandWidth.widest]
  rw [← h, OperandWidth.max_comm, OperandWidth.word_max]

theorem widest_cons (w : OperandWidth) (ws : List OperandWidth) :
    OperandWidth.word.widest (w :: ws) = max w (OperandWidth.word.widest ws) := by
  rw [← List.singleton_append, widest_append]
  exact congrArg (max · _) (OperandWidth.word_max w)

/-- **Clues in two parts** add up to what the parts add up to. -/
theorem ofClues_append (ks ls : List Clue) :
    ofClues (ks ++ ls) = (ofClues ks).join (ofClues ls) := by
  simp only [ofClues_eq, List.any_append, List.filterMap_append]
  rw [widest_append]
  cases hk : ks.any Clue.tellsArm <;> cases hl : ls.any Clue.tellsArm
  · cases ks.any Clue.isMarked <;> cases ls.any Clue.isMarked <;> rfl
  · simp [join, any_vfp_eq_false hk]
  · simp [join, any_vfp_eq_false hl]
  · simp [join]

end AsmDialect.Profile
