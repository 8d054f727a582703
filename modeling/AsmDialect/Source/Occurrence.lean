import AsmDialect.Source.Rendering
/-!
# Where words stand

A word can be looked for in a source without taking the source apart: it stands in some place there,
with the end of the source or a separator on either side. Main statement: the words of a source are
those that stand in it (`mem_words_iff`).
-/

namespace AsmDialect.Source

/-- Whether bytes stand in a source with its end or a separator on either side of them. -/
def Occurs (w s : Source) : Prop :=
  ∃ l r, s = l ++ w ++ r ∧ (∀ b ∈ l.getLast?, isSeparator b = true) ∧
    ∀ b ∈ r.head?, isSeparator b = true

/-- Whether bytes can be a word. -/
def IsWord (w : Source) : Prop := w ≠ [] ∧ ∀ b ∈ w, isSeparator b = false

theorem isWord_of_shows {w s : Source} {ws : List Source} (hs : Shows ws s) (h : w ∈ ws) :
    IsWord w := by
  induction hs with
  | gap => simp at h
  | word _ hne hw _ _ ih =>
    rcases List.mem_cons.1 h with rfl | h
    · exact ⟨hne, hw⟩
    · exact ih h

theorem words_append_of_ends_in_separator {l s : Source}
    (hl : ∀ b ∈ l.getLast?, isSeparator b = true) : words (l ++ s) = words l ++ words s := by
  rcases List.eq_nil_or_concat l with rfl | ⟨l, b, rfl⟩
  · simp [words_nil]
  · have hb : isSeparator b = true := hl b (by simp)
    simp only [List.concat_eq_append, List.append_assoc, List.singleton_append]
    rw [words_append_cons hb, words_append_cons hb, words_nil, List.append_nil]

theorem words_append_of_starts_with_separator {l s : Source}
    (hs : ∀ b ∈ s.head?, isSeparator b = true) : words (l ++ s) = words l ++ words s := by
  cases s with
  | nil => simp [words_nil]
  | cons b s =>
    have hb : isSeparator b = true := hs b (by simp)
    rw [words_append_cons hb, words_cons_of_separator hb]

theorem mem_words_of_occurs {w s : Source} (hw : IsWord w) (h : Occurs w s) : w ∈ words s := by
  obtain ⟨l, r, rfl, hl, hr⟩ := h
  rw [words_append_of_starts_with_separator hr, words_append_of_ends_in_separator hl,
    words_eq_singleton hw.1 hw.2]
  simp

theorem occurs_of_shows {w s : Source} {ws : List Source} (hs : Shows ws s) (h : w ∈ ws) :
    Occurs w s := by
  induction hs with
  | gap => simp at h
  | @word g v s ws hg hne hv hs hws ih =>
    rcases List.mem_cons.1 h with rfl | h
    · exact ⟨g, s, rfl, fun b hb => hg b (List.mem_of_getLast? hb), hs⟩
    · obtain ⟨l, r, rfl, hl, hr⟩ := ih h
      refine ⟨g ++ v ++ l, r, by simp, ?_, hr⟩
      cases l with
      | nil =>
        obtain ⟨hne, hw⟩ := isWord_of_shows hws h
        obtain ⟨b, u, rfl⟩ := List.exists_cons_of_ne_nil hne
        exact absurd (hs b (by simp)) (by simp [hw b])
      | cons b l => simpa using hl

/-- **Words stand alone**: a source has just those words that stand in it. -/
theorem mem_words_iff {w s : Source} : w ∈ words s ↔ IsWord w ∧ Occurs w s :=
  ⟨fun h => ⟨isWord_of_shows (shows_words s) h, occurs_of_shows (shows_words s) h⟩,
    fun h => mem_words_of_occurs h.1 h.2⟩

end AsmDialect.Source
