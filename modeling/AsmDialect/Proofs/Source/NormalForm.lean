import Mathlib.Data.Set.Image
import AsmDialect.Proofs.Source.QuotePairs
/-!
# Prepared sources

Nothing that one stage of the preparation takes out comes back in a later one: what stood around a
literal is put together without a quote between, and folding makes neither a NUL nor a quote. So a
prepared source has none of what the stages are after, except for a quote that has no partner, and
preparing it again does nothing. Main statements: what can be prepared no further is what has
nothing to take out or fold (`prepared_eq_self_iff`), and these are just the prepared sources
(`prepared_normal_form`).
-/

namespace AsmDialect.Source

/-- Whether there is nothing in a source to take out or fold. One quote pairs up with none. -/
structure IsNormal (s : Source) : Prop where
  nul_not_mem : nul ∉ s
  no_capital : ∀ b ∈ s, isCapital b = false
  quotes_le_one : quotes s ≤ 1

/-! ## What a stage keeps of the others' work -/

theorem beforeNul_eq_or (s : Source) : s.beforeNul = s ∨ ∃ r, s = s.beforeNul ++ nul :: r := by
  by_cases h : nul ∈ s
  · obtain ⟨a, r, rfl, ha⟩ := List.eq_append_cons_of_mem h
    rw [beforeNul_append_nul_cons, beforeNul_of_not_mem ha]
    exact .inr ⟨r, rfl⟩
  · exact .inl (beforeNul_of_not_mem h)

/-- Reading on keeps bytes or drops them, be they met or held back. -/
theorem go_sublist (s : Source) :
    (withoutLiterals.go none s).Sublist s ∧
      ∀ held, (withoutLiterals.go (some held) s).Sublist (quote :: (held.reverse ++ s)) := by
  induction s with
  | nil => exact ⟨List.Sublist.refl [], fun held => by simp [withoutLiterals.go]⟩
  | cons b s ih =>
    by_cases hb : b = quote
    · subst hb
      simp only [withoutLiterals.go, if_true]
      refine ⟨by simpa using ih.2 [], fun held => ?_⟩
      have hdropped : s.Sublist (held.reverse ++ quote :: s) :=
        (List.sublist_cons_self quote s).trans (List.sublist_append_right _ _)
      exact (ih.1.trans hdropped).cons quote
    · simp only [withoutLiterals.go, hb, if_false]
      exact ⟨ih.1.cons_cons b, fun held => by simpa using ih.2 (b :: held)⟩

theorem withoutLiterals_sublist (s : Source) : s.withoutLiterals.Sublist s :=
  (go_sublist s).1

theorem nul_mem_lower_iff {s : Source} : nul ∈ s.lower ↔ nul ∈ s := by
  simp [lower, lowerByte_eq_nul_iff]

theorem quotes_lower (s : Source) : quotes s.lower = quotes s := by
  have hp : ((· == quote) ∘ lowerByte) = (· == quote) := by
    funext b
    rw [Bool.eq_iff_iff, Function.comp_apply, beq_iff_eq, beq_iff_eq, lowerByte_eq_quote_iff]
  rw [quotes, List.count, lower, List.countP_map, hp]
  rfl

/-! ## Where a stage has nothing to do -/

theorem withoutLiterals_of_quotes_le_one {s : Source} (h : quotes s ≤ 1) :
    s.withoutLiterals = s := by
  apply withoutLiterals_of_no_match
  intro a c r hmatch
  have hcount := congrArg quotes hmatch.eq_append
  rw [quotes_append, quotes_cons_quote, quotes_append, quotes_cons_quote] at hcount
  omega

theorem lower_of_no_capital {s : Source} (h : ∀ b ∈ s, isCapital b = false) : s.lower = s := by
  have hid : ∀ b ∈ s, lowerByte b = id b := by
    intro b hb
    simp [lowerByte, h b hb]
  rw [lower, List.map_congr_left hid, List.map_id]

/-! ## All stages -/

theorem isNormal_prepared (s : Source) : IsNormal s.prepared where
  nul_not_mem := by
    rw [prepared, nul_mem_lower_iff]
    exact fun h => nul_not_mem_beforeNul s ((withoutLiterals_sublist _).subset h)
  no_capital := by
    intro b hb
    obtain ⟨c, -, rfl⟩ := List.mem_map.1 hb
    exact isCapital_lowerByte c
  quotes_le_one := by
    rw [prepared, quotes_lower, quotes_withoutLiterals]
    omega

theorem prepared_of_isNormal {s : Source} (h : IsNormal s) : s.prepared = s := by
  rw [prepared, beforeNul_of_not_mem h.nul_not_mem,
    withoutLiterals_of_quotes_le_one h.quotes_le_one, lower_of_no_capital h.no_capital]

/-- **Prepared already**: preparing does nothing just where there is nothing to take out or fold. -/
theorem prepared_eq_self_iff {s : Source} : s.prepared = s ↔ IsNormal s :=
  ⟨fun h => h ▸ isNormal_prepared s, prepared_of_isNormal⟩

/-- **A prepared source is in normal form.** It has no NUL, no capital and at most one quote. It is
made of bytes from before the first NUL, in their order and in small letters. Preparing it again
does nothing; so it is with the sources in normal form and with no others, and each of them is a
prepared source. -/
theorem prepared_normal_form :
    (∀ s : Source, IsNormal s.prepared ∧
      (∃ a kept : Source, nul ∉ a ∧ (a = s ∨ ∃ r, s = a ++ nul :: r) ∧ kept.Sublist a ∧
        s.prepared = kept.lower) ∧
      s.prepared.prepared = s.prepared ∧ (s.prepared = s ↔ IsNormal s)) ∧
      Set.range prepared = {s | IsNormal s} := by
  refine ⟨fun s => ⟨isNormal_prepared s, ?_, ?_, prepared_eq_self_iff⟩, ?_⟩
  · exact ⟨s.beforeNul, s.beforeNul.withoutLiterals, nul_not_mem_beforeNul s, beforeNul_eq_or s,
      withoutLiterals_sublist _, rfl⟩
  · exact prepared_of_isNormal (isNormal_prepared s)
  · ext s
    constructor
    · rintro ⟨t, rfl⟩
      exact isNormal_prepared t
    · intro h
      exact ⟨s, prepared_of_isNormal h⟩

/-- What stands around a literal is put together, and the quote that stays has no partner even if
there was one behind the NUL. -/
example : prepared (ofText "vl\"Ax\"DR \"R0" ++ nul :: ofText "\"str") = ofText "vldr \"r0" := by
  decide

end AsmDialect.Source
