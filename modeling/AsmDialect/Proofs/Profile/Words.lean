import AsmDialect.Profile.Join
import AsmDialect.Proofs.Vocabulary
/-!
# Profiles of words

A profile is made of what clues there are, not of where they stand: neither the order of the clues
nor their number counts, although two of the scans stop early and the first can switch off the
others. Main statements: lists with the same clues have the same profile (`ofClues_congr`), fewer
clues say no more (`ofClues_below`), and words in two parts add up to the join of what the parts add
up to (`ofTokens_homomorphism`).
-/

namespace AsmDialect

/-- The widest of some widths is the widest there is among them. -/
theorem OperandWidth.widest_word_eq (ws : List OperandWidth) :
    word.widest ws = if qword ∈ ws then qword else if dword ∈ ws then dword else word := by
  induction ws with
  | nil => rfl
  | cons w ws ih =>
    rw [Profile.widest_cons, ih]
    by_cases hq : qword ∈ ws <;> by_cases hd : dword ∈ ws <;> cases w <;> simp [hq, hd] <;> rfl

namespace Profile

theorem any_congr {ks ls : List Clue} (h : ∀ k, k ∈ ks ↔ k ∈ ls) (f : Clue → Bool) :
    ks.any f = ls.any f := by
  rw [Bool.eq_iff_iff, List.any_eq_true, List.any_eq_true]
  simp only [h]

theorem any_tellsArm (ks : List Clue) :
    ks.any Clue.tellsArm = (ks.any (Clue.isOf .arm) || ks.any (Clue.isOf .vfp)) := by
  induction ks with
  | nil => rfl
  | cons k ks ih =>
    simp only [List.any_cons, ih, Clue.tellsArm]
    ac_rfl

/-- **Order and number do not count**: the profile of clues is told by which clues there are. -/
theorem ofClues_congr {ks ls : List Clue} (h : ∀ k, k ∈ ks ↔ k ∈ ls) :
    ofClues ks = ofClues ls := by
  have hw (w : OperandWidth) : w ∈ ks.filterMap Clue.width? ↔ w ∈ ls.filterMap Clue.width? := by
    simp only [List.mem_filterMap, h]
  rw [ofClues_eq, ofClues_eq, OperandWidth.widest_word_eq, OperandWidth.widest_word_eq]
  simp only [any_congr h, hw]

/-- Fewer clues say no more. -/
theorem ofClues_below {ks ls : List Clue} (h : ∀ k ∈ ks, k ∈ ls) :
    (ofClues ks).Below (ofClues ls) := by
  rw [Below, ← ofClues_append]
  apply ofClues_congr
  intro k
  rw [List.mem_append]
  exact ⟨fun hk => hk.elim (h k) id, .inr⟩

/-! ## Words -/

theorem ofTokens_append (ts us : List String) :
    ofTokens (ts ++ us) = (ofTokens ts).join (ofTokens us) := by
  rw [ofTokens, Clue.ofTokens_append, ofClues_append]
  rfl

/-- Lists with the same words of the vocabulary have the same clues. -/
theorem mem_ofTokens_congr {ts us : List String}
    (h : ∀ t ∈ Vocabulary.recognised, t ∈ ts ↔ t ∈ us) (k : Clue) :
    k ∈ Clue.ofTokens ts ↔ k ∈ Clue.ofTokens us := by
  rw [Clue.mem_ofTokens, Clue.mem_ofTokens]
  exact h k.text (Vocabulary.mem_recognised.2 ⟨k, rfl⟩)

/-- **Words in two parts** have the join of the parts' profiles. So lists of words with the same
words of the vocabulary have the same profile, in whatever order and however often these come, and
whatever other words come with them. -/
theorem ofTokens_homomorphism :
    (∀ ts us : List String, ofTokens (ts ++ us) = (ofTokens ts).join (ofTokens us)) ∧
      ∀ ts us : List String, (∀ t ∈ Vocabulary.recognised, t ∈ ts ↔ t ∈ us) →
        ofTokens ts = ofTokens us := by
  refine ⟨ofTokens_append, fun ts us h => ?_⟩
  exact ofClues_congr (mem_ofTokens_congr h)

/-- Some words of x86 code with one of ARM among them, twice over and in another order. -/
theorem ofTokens_homomorphism_reordered :
    (∀ t ∈ Vocabulary.recognised,
        t ∈ ["mov", "%rax", "ldr", "fld"] ↔ t ∈ ["fld", "ldr", "ldr", "%rax", "%", "eldr"]) ∧
      ofTokens ["mov", "%rax", "ldr", "fld"] =
        ofTokens ["fld", "ldr", "ldr", "%rax", "%", "eldr"] := by
  have h : ∀ t ∈ Vocabulary.recognised,
      t ∈ ["mov", "%rax", "ldr", "fld"] ↔ t ∈ ["fld", "ldr", "ldr", "%rax", "%", "eldr"] := by
    decide
  exact ⟨h, ofTokens_homomorphism.2 _ _ h⟩

end Profile

end AsmDialect
