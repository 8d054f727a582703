import AsmDialect.Proofs.Vocabulary
/-!
# Words by their positions

Bytes stand in a source from one position to another when they are what is between the two, and each
of the two is at an end of the source or has a separator just beyond it. To look for a word in this
way takes no more than comparing bytes. Main statement: a word of the vocabulary is among the words
of a source just when it stands somewhere in it (`hasWord_iff`).
-/

namespace AsmDialect.Source

/-- Whether bytes stand in a source from one position to another. -/
structure StandsAt (w p : Source) (i j : Nat) : Prop where
  lt : i < j
  le : j ≤ p.length
  between : (p.take j).drop i = w
  before : i = 0 ∨ ∃ b ∈ p[i - 1]?, isSeparator b = true
  after : j = p.length ∨ ∃ b ∈ p[j]?, isSeparator b = true

/-- Whether a word stands somewhere in a source. -/
def HasWord (p : Source) (t : String) : Prop := ∃ i j, StandsAt (ofText t) p i j

/-- Whether one of some words stands in a source. -/
def HasAny (p : Source) (ts : List String) : Prop := ∃ t ∈ ts, p.HasWord t

/-! ## Looking for a word -/

instance (p : Source) (i : Nat) : Decidable (∃ b ∈ p[i]?, isSeparator b = true) :=
  decidable_of_iff (p[i]?.any isSeparator = true) (Option.any_eq_true isSeparator p[i]?)

instance (w p : Source) (i j : Nat) : Decidable (StandsAt w p i j) :=
  decidable_of_iff
    (i < j ∧ j ≤ p.length ∧ (p.take j).drop i = w ∧
      (i = 0 ∨ ∃ b ∈ p[i - 1]?, isSeparator b = true) ∧
      (j = p.length ∨ ∃ b ∈ p[j]?, isSeparator b = true))
    ⟨fun ⟨h₁, h₂, h₃, h₄, h₅⟩ => ⟨h₁, h₂, h₃, h₄, h₅⟩,
      fun ⟨h₁, h₂, h₃, h₄, h₅⟩ => ⟨h₁, h₂, h₃, h₄, h₅⟩⟩

/-- The search ends, for there are no positions beyond the end. -/
theorem hasWord_iff_bounded {p : Source} {t : String} :
    p.HasWord t ↔ ∃ i < p.length, ∃ j < p.length + 1, StandsAt (ofText t) p i j := by
  constructor
  · rintro ⟨i, j, h⟩
    have hj : j < p.length + 1 := by
      have hle := h.le
      omega
    have hi : i < p.length := Nat.lt_of_lt_of_le h.lt h.le
    exact ⟨i, hi, j, hj, h⟩
  · rintro ⟨i, -, j, -, h⟩
    exact ⟨i, j, h⟩

instance (p : Source) (t : String) : Decidable (p.HasWord t) :=
  decidable_of_iff _ hasWord_iff_bounded.symm

instance (p : Source) (ts : List String) : Decidable (p.HasAny ts) :=
  inferInstanceAs (Decidable (∃ t ∈ ts, p.HasWord t))

/-! ## Positions and parts -/

theorem occurs_of_standsAt {w p : Source} {i j : Nat} (h : StandsAt w p i j) : Occurs w p := by
  have hij : i ≤ j := Nat.le_of_lt h.lt
  refine ⟨p.take i, p.drop j, ?_, ?_, ?_⟩
  · have htake : p.take i = (p.take j).take i := by
      rw [List.take_take, Nat.min_eq_left hij]
    rw [← h.between, htake, List.take_append_drop, List.take_append_drop]
  · intro b hb
    rw [List.getLast?_take] at hb
    rcases h.before with rfl | ⟨c, hc, hsep⟩
    · cases hb
    · split at hb
      · cases hb
      · rw [Option.mem_def.1 hc] at hb
        cases hb
        exact hsep
  · intro b hb
    rw [List.head?_drop] at hb
    rcases h.after with rfl | ⟨c, hc, hsep⟩
    · simp at hb
    · rw [Option.mem_def.1 hc] at hb
      cases hb
      exact hsep

theorem standsAt_of_parts {w l r : Source} (hne : w ≠ [])
    (hl : ∀ b ∈ l.getLast?, isSeparator b = true) (hr : ∀ b ∈ r.head?, isSeparator b = true) :
    StandsAt w (l ++ w ++ r) l.length (l ++ w).length := by
  have hpos : 0 < w.length := List.length_pos_iff.2 hne
  constructor
  · rw [List.length_append]
    omega
  · simp only [List.length_append]
    omega
  · rw [List.take_left, List.drop_left]
  · rcases List.eq_nil_or_concat l with rfl | ⟨l, b, rfl⟩
    · exact .inl rfl
    · exact .inr ⟨b, by simp, hl b (by simp)⟩
  · cases r with
    | nil => exact .inl (by rw [List.append_nil])
    | cons b r => exact .inr ⟨b, by simp, hr b rfl⟩

/-- **Words by their positions**: what stands in a source stands somewhere in it. -/
theorem occurs_iff {w p : Source} (hne : w ≠ []) : Occurs w p ↔ ∃ i j, StandsAt w p i j := by
  constructor
  · rintro ⟨l, r, rfl, hl, hr⟩
    exact ⟨_, _, standsAt_of_parts hne hl hr⟩
  · rintro ⟨i, j, h⟩
    exact occurs_of_standsAt h

/-- **Words of the vocabulary by their positions**. -/
theorem hasWord_iff {p : Source} {t : String} (ht : t ∈ Vocabulary.recognised) :
    p.HasWord t ↔ t ∈ p.tokens := by
  have hw := isWord_ofText ht
  rw [mem_tokens_iff ht, mem_words_iff, HasWord, ← occurs_iff hw.1]
  exact ⟨fun h => ⟨hw, h⟩, fun h => h.2⟩

/-- Words that some clues are written as stand in a source just when it has one of these clues. -/
theorem hasAny_iff {ts : List String} {f : Clue → Bool}
    (h : ∀ t, t ∈ ts ↔ ∃ k : Clue, f k = true ∧ k.text = t) {p : Source} :
    p.HasAny ts ↔ (Clue.ofTokens p.tokens).any f = true := by
  have hk (k : Clue) : p.HasWord k.text ↔ k ∈ Clue.ofTokens p.tokens := by
    rw [hasWord_iff (Vocabulary.mem_recognised.2 ⟨k, rfl⟩), Clue.mem_ofTokens]
  rw [HasAny, List.any_eq_true]
  constructor
  · rintro ⟨t, ht, hp⟩
    obtain ⟨k, hf, rfl⟩ := (h t).1 ht
    exact ⟨k, (hk k).1 hp, hf⟩
  · rintro ⟨k, hmem, hf⟩
    exact ⟨k.text, (h k.text).2 ⟨k, hf, rfl⟩, (hk k).2 hmem⟩

end AsmDialect.Source
