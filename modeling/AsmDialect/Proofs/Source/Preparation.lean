import Mathlib.Algebra.Group.Nat.Even
import AsmDialect.Source.Literal
import AsmDialect.Source.Pieces
import AsmDialect.Source.Words
/-!
# Preparing a source in parts

What is done to a source before it is read for words is done from left to right, with one thing to
remember: whether a quote is open. So a source can be cut where no NUL came before and no literal is
cut in two, and its parts be prepared on their own. Main statements: that cut (`prepared_append`),
and that the capitals can be folded first (`prepared_eq_lower_first`).
-/

namespace AsmDialect.Source

/-- Two parts with one byte between them are without a byte if either part is, and the one byte is
another. -/
theorem not_mem_append_cons_iff {x y : UInt8} {a b : Source} :
    x ∉ a ++ y :: b ↔ x ∉ a ∧ x ≠ y ∧ x ∉ b := by
  rw [List.mem_append, List.mem_cons, not_or, not_or]

/-! ## The end of a source -/

theorem beforeNul_append {a : Source} (h : nul ∉ a) (b : Source) :
    (a ++ b).beforeNul = a ++ b.beforeNul := by
  have hne : ∀ c ∈ a, (c != nul) = true := by
    intro c hc
    rw [bne_iff_ne]
    exact fun e => h (e ▸ hc)
  exact List.takeWhile_append_of_pos hne

theorem beforeNul_of_not_mem {a : Source} (h : nul ∉ a) : a.beforeNul = a := by
  simpa [beforeNul] using beforeNul_append h []

/-- What follows a NUL is no part of the source. -/
theorem beforeNul_append_nul_cons (a r : Source) : (a ++ nul :: r).beforeNul = a.beforeNul := by
  induction a with
  | nil => rfl
  | cons c a ih =>
    by_cases hc : c = nul
    · subst hc
      rfl
    · have hne : (c != nul) = true := bne_iff_ne.2 hc
      simp only [beforeNul, List.cons_append, List.takeWhile_cons, hne, if_true] at ih ⊢
      rw [ih]

theorem beforeNul_append_of_mem {a : Source} (h : nul ∈ a) (b : Source) :
    (a ++ b).beforeNul = a.beforeNul := by
  obtain ⟨l, r, rfl⟩ := List.append_of_mem h
  rw [List.append_assoc, List.cons_append, beforeNul_append_nul_cons, beforeNul_append_nul_cons]

theorem nul_not_mem_beforeNul (s : Source) : nul ∉ s.beforeNul := by
  intro h
  have hne := List.all_eq_true.1 List.all_takeWhile nul h
  simp at hne

/-! ## Literals -/

theorem quotes_append (a b : Source) : quotes (a ++ b) = quotes a + quotes b :=
  List.count_append

theorem quotes_of_not_mem {a : Source} (h : quote ∉ a) : quotes a = 0 :=
  List.count_eq_zero.2 h

theorem even_quotes_of_not_mem {a : Source} (h : quote ∉ a) : Even (quotes a) := by
  rw [quotes_of_not_mem h]
  exact Even.zero

theorem quotes_cons_quote (a : Source) : quotes (quote :: a) = quotes a + 1 :=
  List.count_cons_self

theorem quotes_cons_of_ne {c : UInt8} (h : c ≠ quote) (a : Source) :
    quotes (c :: a) = quotes a :=
  List.count_cons_of_ne h

/-- After an odd number of quotes the last of them is open. -/
theorem exists_open_quote {a : Source} (h : ¬ Even (quotes a)) :
    ∃ l r, a = l ++ quote :: r ∧ Even (quotes l) ∧ quote ∉ r := by
  have hmem : quote ∈ a.reverse := by
    rw [List.mem_reverse]
    by_contra hq
    rw [quotes_of_not_mem hq] at h
    exact h Even.zero
  obtain ⟨r, l, hrev, hr⟩ := List.eq_append_cons_of_mem hmem
  have ha : a = l.reverse ++ quote :: r.reverse := by
    rw [← List.reverse_reverse a, hrev]
    simp
  rw [← List.mem_reverse] at hr
  refine ⟨l.reverse, r.reverse, ha, ?_, hr⟩
  rw [ha, quotes_append, quotes_cons_quote, quotes_of_not_mem hr, Nat.even_add_one] at h
  exact Decidable.not_not.1 h

/-- Reading on past a part of the source. No quote is open after an even number of quotes if none
was open before, and after an odd number if one was. -/
theorem go_append (a b : Source) :
    (Even (quotes a) →
        withoutLiterals.go none (a ++ b) = withoutLiterals.go none a ++ withoutLiterals.go none b) ∧
      ∀ held, ¬ Even (quotes a) →
        withoutLiterals.go (some held) (a ++ b) =
          withoutLiterals.go (some held) a ++ withoutLiterals.go none b := by
  induction a with
  | nil => exact ⟨fun _ => rfl, fun _ h => absurd Even.zero h⟩
  | cons c a ih =>
    by_cases hc : c = quote
    · subst hc
      rw [quotes_cons_quote, Nat.even_add_one]
      simp only [List.cons_append, withoutLiterals.go, if_true]
      exact ⟨ih.2 [], fun _ h => ih.1 (Decidable.not_not.1 h)⟩
    · rw [quotes_cons_of_ne hc]
      simp only [List.cons_append, withoutLiterals.go, hc, if_false]
      exact ⟨fun h => congrArg (c :: ·) (ih.1 h), fun held h => ih.2 (c :: held) h⟩

/-- With a quote open, bytes other than quotes are held back. -/
theorem go_some_append {c : Source} (h : quote ∉ c) (held s : Source) :
    withoutLiterals.go (some held) (c ++ s) =
      withoutLiterals.go (some (c.reverse ++ held)) s := by
  induction c generalizing held with
  | nil => rfl
  | cons x c ih =>
    have hx : x ≠ quote := (List.ne_of_not_mem_cons h).symm
    simp only [List.cons_append, withoutLiterals.go, hx, if_false]
    rw [ih (List.not_mem_of_not_mem_cons h), List.reverse_cons, List.append_assoc,
      List.singleton_append]

theorem withoutLiterals_of_not_mem {a : Source} (h : quote ∉ a) : a.withoutLiterals = a := by
  induction a with
  | nil => rfl
  | cons c a ih =>
    have hc : c ≠ quote := (List.ne_of_not_mem_cons h).symm
    have ha := ih (List.not_mem_of_not_mem_cons h)
    simp only [withoutLiterals, withoutLiterals.go, hc, if_false] at ha ⊢
    rw [ha]

/-- Reading on where no quote comes any more. What was held back is put out again. -/
theorem go_append_of_not_mem {b : Source} (hb : quote ∉ b) (a : Source) :
    withoutLiterals.go none (a ++ b) = withoutLiterals.go none a ++ b ∧
      ∀ held, withoutLiterals.go (some held) (a ++ b) = withoutLiterals.go (some held) a ++ b := by
  induction a with
  | nil =>
    refine ⟨withoutLiterals_of_not_mem hb, fun held => ?_⟩
    have hall := go_some_append hb held []
    rw [List.append_nil] at hall
    simp [hall, withoutLiterals.go]
  | cons c a ih =>
    by_cases hc : c = quote
    · simp only [List.cons_append, withoutLiterals.go, hc, if_true]
      exact ⟨ih.2 [], fun _ => ih.1⟩
    · simp only [List.cons_append, withoutLiterals.go, hc, if_false]
      exact ⟨congrArg (c :: ·) ih.1, fun held => ih.2 (c :: held)⟩

/-- **A cut in no literal**: no quote is open there, or none comes after to close it. -/
theorem withoutLiterals_append {a b : Source} (h : Even (quotes a) ∨ quote ∉ b) :
    (a ++ b).withoutLiterals = a.withoutLiterals ++ b.withoutLiterals := by
  rcases h with ha | hb
  · exact (go_append a b).1 ha
  · rw [withoutLiterals_of_not_mem hb]
    exact (go_append_of_not_mem hb a).1

/-- A closed literal leaves nothing behind. -/
theorem withoutLiterals_literal {c : Source} (h : quote ∉ c) (s : Source) :
    withoutLiterals (quote :: (c ++ quote :: s)) = s.withoutLiterals := by
  simp [withoutLiterals, withoutLiterals.go, go_some_append h]

/-- A quote that nothing closes stays, with all that follows it. -/
theorem withoutLiterals_open {b : Source} (h : quote ∉ b) :
    withoutLiterals (quote :: b) = quote :: b := by
  have hheld := go_some_append h [] []
  rw [List.append_nil, List.append_nil] at hheld
  simp [withoutLiterals, withoutLiterals.go, hheld]

/-! ## Small letters -/

theorem lower_append (a b : Source) : (a ++ b).lower = a.lower ++ b.lower :=
  List.map_append

theorem isCapital_add {b : UInt8} (h : isCapital b = true) : isCapital (b + 32) = false := by
  simp only [isCapital, Bool.and_eq_true, decide_eq_true_eq, UInt8.le_iff_toNat_le] at h
  rw [Bool.eq_false_iff]
  simp only [isCapital, ne_eq, Bool.and_eq_true, decide_eq_true_eq, UInt8.le_iff_toNat_le,
    UInt8.toNat_add]
  have hA : 'A'.toUInt8.toNat = 65 := rfl
  have hZ : 'Z'.toUInt8.toNat = 90 := rfl
  have h32 : (32 : UInt8).toNat = 32 := rfl
  omega

/-- Folding leaves no capital. -/
theorem isCapital_lowerByte (b : UInt8) : isCapital (lowerByte b) = false := by
  unfold lowerByte
  split
  next h => exact isCapital_add h
  next h => simpa using h

/-- Folding neither makes nor removes a byte that is no capital and no small letter. -/
theorem lowerByte_eq_iff {c : UInt8} (hc : isCapital c = false) (hl : isCapital (c - 32) = false)
    (b : UInt8) : lowerByte b = c ↔ b = c := by
  unfold lowerByte
  split
  next hb =>
    constructor
    · rintro rfl
      rw [UInt8.add_sub_cancel] at hl
      exact absurd hb (by simp [hl])
    · rintro rfl
      exact absurd hb (by simp [hc])
  next => rfl

theorem lowerByte_eq_nul_iff (b : UInt8) : lowerByte b = nul ↔ b = nul :=
  lowerByte_eq_iff (by decide) (by decide) b

theorem lowerByte_eq_quote_iff (b : UInt8) : lowerByte b = quote ↔ b = quote :=
  lowerByte_eq_iff (by decide) (by decide) b

theorem beforeNul_lower (s : Source) : s.lower.beforeNul = s.beforeNul.lower := by
  have hp : ((· != nul) ∘ lowerByte) = (· != nul) := by
    funext b
    rw [Bool.eq_iff_iff, Function.comp_apply, bne_iff_ne, bne_iff_ne, ne_eq, lowerByte_eq_nul_iff]
  rw [beforeNul, lower, List.takeWhile_map, hp]
  rfl

theorem go_lower (s : Source) :
    withoutLiterals.go none s.lower = (withoutLiterals.go none s).lower ∧
      ∀ held, withoutLiterals.go (some (lower held)) s.lower =
        (withoutLiterals.go (some held) s).lower := by
  have hq : lowerByte quote = quote := (lowerByte_eq_quote_iff quote).2 rfl
  induction s with
  | nil => exact ⟨rfl, fun held => by simp [lower, withoutLiterals.go, hq]⟩
  | cons b s ih =>
    by_cases h : b = quote
    · subst h
      simp only [lower, List.map_cons, withoutLiterals.go, hq, if_true]
      exact ⟨ih.2 [], fun _ => ih.1⟩
    · have hl : lowerByte b ≠ quote := fun e => h ((lowerByte_eq_quote_iff b).1 e)
      simp only [lower, List.map_cons, withoutLiterals.go, hl, h, if_false]
      exact ⟨congrArg (lowerByte b :: ·) ih.1, fun held => ih.2 (b :: held)⟩

theorem withoutLiterals_lower (s : Source) :
    s.lower.withoutLiterals = s.withoutLiterals.lower :=
  (go_lower s).1

/-! ## All of it -/

/-- **Folding first** comes to the same. -/
theorem prepared_eq_lower_first (s : Source) :
    s.prepared = s.lower.beforeNul.withoutLiterals := by
  rw [beforeNul_lower, withoutLiterals_lower]
  rfl

/-- **A cut before the end and in no literal** cuts the preparation in two. -/
theorem prepared_append {a b : Source} (hn : nul ∉ a)
    (h : Even (quotes a) ∨ quote ∉ b.beforeNul) :
    (a ++ b).prepared = a.prepared ++ b.prepared := by
  unfold prepared
  rw [beforeNul_append hn, withoutLiterals_append h, lower_append, beforeNul_of_not_mem hn]

theorem prepared_of_plain {a : Source} (hn : nul ∉ a) (hq : quote ∉ a) : a.prepared = a.lower := by
  rw [prepared, beforeNul_of_not_mem hn, withoutLiterals_of_not_mem hq]

/-! ## Separators -/

theorem isSeparator_ne_nul {b : UInt8} (h : isSeparator b = true) : b ≠ nul := by
  rintro rfl
  revert h
  decide

theorem isSeparator_ne_quote {b : UInt8} (h : isSeparator b = true) : b ≠ quote := by
  rintro rfl
  revert h
  decide

theorem lowerByte_of_isSeparator {b : UInt8} (h : isSeparator b = true) : lowerByte b = b := by
  have hall : separators.all (fun c => lowerByte c == c) = true := by decide
  exact eq_of_beq (List.all_eq_true.1 hall b (List.contains_iff_mem.1 h))

end AsmDialect.Source
