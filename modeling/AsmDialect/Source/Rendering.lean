import AsmDialect.Source.Words
/-!
# Words and gaps

The reverse of taking a source apart: a source shows a list of words when it consists of them with
gaps of separators in between, before and after. Main statement: a source shows its words and no
other list (`words_eq_iff`), so nothing is lost or made up when it is taken apart.
-/

namespace AsmDialect.Source

/-- Whether a source consists of the given words in order, with separators before and after each, at
least one between two of them. -/
inductive Shows : List Source → Source → Prop
  | gap {g : Source} (hg : ∀ b ∈ g, isSeparator b = true) : Shows [] g
  | word {g w s : Source} {ws : List Source} (hg : ∀ b ∈ g, isSeparator b = true) (hne : w ≠ [])
      (hw : ∀ b ∈ w, isSeparator b = false) (hs : ∀ b ∈ s.head?, isSeparator b = true)
      (h : Shows ws s) : Shows (w :: ws) (g ++ w ++ s)

theorem words_of_shows {ws : List Source} {s : Source} (h : Shows ws s) : words s = ws := by
  induction h with
  | gap hg => simpa [words_nil] using words_append_of_separators (s := []) hg
  | @word g w s ws hg hne hw hs _ ih =>
    rw [List.append_assoc, words_append_of_separators hg]
    cases s with
    | nil => simp_all [words_nil, words_eq_singleton hne hw]
    | cons b s =>
      have hb : isSeparator b = true := hs b (by simp)
      rw [words_append_cons hb, words_eq_singleton hne hw, ← ih, words_cons_of_separator hb]
      rfl

theorem shows_cons_separator {ws : List Source} {s : Source} {b : UInt8} (h : Shows ws s)
    (hb : isSeparator b = true) : Shows ws (b :: s) := by
  cases h with
  | gap hg => exact .gap fun c hc => (List.mem_cons.1 hc).elim (· ▸ hb) (hg c)
  | @word g w s ws hg hne hw hs h =>
    exact .word (g := b :: g) (fun c hc => (List.mem_cons.1 hc).elim (· ▸ hb) (hg c)) hne hw hs h

/-- A byte that separates nothing makes a word of its own, or joins the word it stands before. -/
theorem exists_shows_cons {ws : List Source} {s : Source} {b : UInt8} (h : Shows ws s)
    (hb : isSeparator b = false) : ∃ us, Shows us (b :: s) := by
  by_cases hs : ∀ c ∈ s.head?, isSeparator c = true
  · exact ⟨[b] :: ws, .word (g := []) (w := [b]) (by simp) (by simp) (by simpa using hb) hs h⟩
  · cases h with
    | gap hg => exact absurd (fun c hc => hg c (List.mem_of_mem_head? hc)) hs
    | @word g w s ws hg hne hw hs' h =>
      cases g with
      | nil =>
        refine ⟨(b :: w) :: ws, .word (g := []) (w := b :: w) (by simp) (by simp) ?_ hs' h⟩
        exact fun c hc => (List.mem_cons.1 hc).elim (· ▸ hb) (hw c)
      | cons c g => exact absurd (by simpa using hg c (by simp)) hs

theorem exists_shows (s : Source) : ∃ ws, Shows ws s := by
  induction s with
  | nil => exact ⟨[], .gap (by simp)⟩
  | cons b s ih =>
    obtain ⟨ws, h⟩ := ih
    cases hb : isSeparator b with
    | true => exact ⟨ws, shows_cons_separator h hb⟩
    | false => exact exists_shows_cons h hb

theorem shows_words (s : Source) : Shows (words s) s := by
  obtain ⟨ws, h⟩ := exists_shows s
  rwa [words_of_shows h]

/-- **Taken apart and put together**: the words of a source are the one list of words it shows. -/
theorem words_eq_iff {s : Source} {ws : List Source} : words s = ws ↔ Shows ws s :=
  ⟨fun h => h ▸ shows_words s, words_of_shows⟩

end AsmDialect.Source
