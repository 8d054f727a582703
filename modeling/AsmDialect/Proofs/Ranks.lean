import Mathlib.Order.WellFounded
/-!
# The first of several things

Several things of one kind can be there at once, each with a rank, and what comes of them is decided
by the first. Which ones are there is said by a predicate, of each by itself; the order is in the
ranks. Main statements: there is a first one if there are any (`exists_isFirst`), and what follows
the first one where there is one, and is nothing where there are none, is told by that alone
(`eq_some_iff_isFirst`, `eq_none_iff_forall_not`).
-/

namespace AsmDialect

variable {α : Type} {P : α → Prop} {rank : α → Nat}

/-- Whether a thing is there and nothing that is there ranks before it. -/
structure IsFirst (P : α → Prop) (rank : α → Nat) (a : α) : Prop where
  holds : P a
  rank_le : ∀ b, P b → rank a ≤ rank b

theorem exists_isFirst {a : α} (h : P a) : ∃ b, IsFirst P rank b := by
  obtain ⟨b, hb, hmin⟩ := (measure rank).wf.has_min {b | P b} ⟨a, h⟩
  exact ⟨b, hb, fun c hc => Nat.not_lt.1 (hmin c hc)⟩

variable {result : Option α}

theorem eq_some_iff_isFirst (hfirst : ∀ a, IsFirst P rank a → result = some a)
    (hnone : (∀ a, ¬ P a) → result = none) {a : α} : result = some a ↔ IsFirst P rank a := by
  constructor
  · intro h
    by_cases hany : ∃ b, P b
    · obtain ⟨b, hb⟩ := hany
      obtain ⟨c, hc⟩ : ∃ c, IsFirst P rank c := exists_isFirst hb
      obtain rfl : c = a := Option.some.inj ((hfirst c hc).symm.trans h)
      exact hc
    · cases h.symm.trans (hnone (not_exists.1 hany))
  · exact hfirst a

theorem eq_none_iff_forall_not (hfirst : ∀ a, IsFirst P rank a → result = some a)
    (hnone : (∀ a, ¬ P a) → result = none) : result = none ↔ ∀ a, ¬ P a := by
  constructor
  · intro h a ha
    obtain ⟨b, hb⟩ : ∃ b, IsFirst P rank b := exists_isFirst ha
    cases h.symm.trans (hfirst b hb)
  · exact hnone

end AsmDialect
