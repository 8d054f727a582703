import AsmDialect.Source.Occurrence
import AsmDialect.Source.Text
/-!
# Words laid out

Any words can be laid out as a source, with separators in any number before, after and between them,
only not with none between two words. Reading the source for words undoes that, and every source is
laid out so. Main statements: the words of a source are those it is laid out from (`tokens_eq_iff`),
they have all of its bytes but the separators (`join_tokens`), and they are at most half as many as
its bytes and one more (`length_tokens`); all of it together (`tokens_of_layouts`).
-/

namespace AsmDialect.Source

/-- Whether text can be a word of a source: its characters stand for bytes, of which there is at
least one and none that separates words. -/
def IsToken (t : String) : Prop := (∀ c ∈ t.toList, c.toNat < 256) ∧ IsWord (ofText t)

instance (t : String) : Decidable (IsToken t) :=
  decidable_of_iff
    (t.toList.all (·.toNat < 256) ∧ ofText t ≠ [] ∧ (ofText t).all (!isSeparator ·))
    (by simp [IsToken, IsWord])

/-- Bytes to begin with, then words in order, each with the bytes that follow it. -/
def laidOut (g : Source) (l : List (String × Source)) : Source :=
  g ++ l.flatMap fun p => ofText p.1 ++ p.2

/-- Whether nothing but words and separators is laid out, with a separator between two words. -/
structure IsLayout (g : Source) (l : List (String × Source)) : Prop where
  before : ∀ b ∈ g, isSeparator b = true
  tokens : ∀ p ∈ l, IsToken p.1
  after : ∀ p ∈ l, ∀ b ∈ p.2, isSeparator b = true
  between : ∀ p ∈ l.dropLast, p.2 ≠ []

instance (g : Source) (l : List (String × Source)) : Decidable (IsLayout g l) :=
  decidable_of_iff
    (g.all isSeparator ∧ (l.all fun p => IsToken p.1) ∧ (l.all fun p => p.2.all isSeparator) ∧
      l.dropLast.all fun p => p.2 ≠ [])
    (by
      simp only [List.all_eq_true, decide_eq_true_eq]
      exact ⟨fun ⟨hg, ht, ha, hb⟩ => ⟨hg, ht, ha, hb⟩,
        fun h => ⟨h.before, h.tokens, h.after, h.between⟩⟩)

theorem isToken_decode {w : Source} (hw : IsWord w) : IsToken (Text.Latin.decode w) := by
  refine ⟨?_, ?_⟩
  · intro c hc
    rw [Text.Latin.toList_decode] at hc
    obtain ⟨b, -, rfl⟩ := List.mem_map.1 hc
    exact b.toNat_lt
  · rw [ofText_decode]
    exact hw

/-! ## One word after the other -/

theorem laidOut_cons (g : Source) (p : String × Source) (l : List (String × Source)) :
    laidOut g (p :: l) = g ++ ofText p.1 ++ laidOut p.2 l := by
  simp [laidOut]

theorem isLayout_cons {g : Source} {p : String × Source} {l : List (String × Source)} :
    IsLayout g (p :: l) ↔
      (∀ b ∈ g, isSeparator b = true) ∧ IsToken p.1 ∧ (l ≠ [] → p.2 ≠ []) ∧ IsLayout p.2 l := by
  constructor
  · intro h
    refine ⟨h.before, h.tokens p List.mem_cons_self, ?_, h.after p List.mem_cons_self, ?_, ?_, ?_⟩
    · intro hl
      apply h.between p
      rw [List.dropLast_cons_of_ne_nil hl]
      exact List.mem_cons_self
    · intro q hq
      exact h.tokens q (List.mem_cons_of_mem p hq)
    · intro q hq
      exact h.after q (List.mem_cons_of_mem p hq)
    · intro q hq
      have hl : l ≠ [] := by
        rintro rfl
        cases hq
      apply h.between q
      rw [List.dropLast_cons_of_ne_nil hl]
      exact List.mem_cons_of_mem p hq
  · rintro ⟨hg, hp, hne, h⟩
    refine ⟨hg, List.forall_mem_cons.2 ⟨hp, h.tokens⟩, List.forall_mem_cons.2 ⟨h.before, h.after⟩,
      ?_⟩
    intro q hq
    by_cases hl : l = []
    · subst hl
      cases hq
    · rw [List.dropLast_cons_of_ne_nil hl] at hq
      rcases List.mem_cons.1 hq with rfl | hq
      · exact hne hl
      · exact h.between q hq

/-- What is laid out starts with a separator if it starts with a gap or is nothing but a gap. -/
theorem head_laidOut {g : Source} {l : List (String × Source)} (h : IsLayout g l) :
    (∀ b ∈ (laidOut g l).head?, isSeparator b = true) ↔ (l ≠ [] → g ≠ []) := by
  cases g with
  | cons b g =>
    have hb : isSeparator b = true := h.before b List.mem_cons_self
    simp [laidOut, hb]
  | nil =>
    cases l with
    | nil => simp [laidOut]
    | cons p l =>
      obtain ⟨-, hp, -, -⟩ := isLayout_cons.1 h
      obtain ⟨b, w, hw⟩ := List.exists_cons_of_ne_nil hp.2.1
      have hb : isSeparator b = false := hp.2.2 b (by simp [hw])
      simp [laidOut, hw, hb]

theorem shows_of_isLayout {g : Source} {l : List (String × Source)} (h : IsLayout g l) :
    Shows (l.map fun p => ofText p.1) (laidOut g l) := by
  induction l generalizing g with
  | nil =>
    rw [laidOut, List.flatMap_nil, List.append_nil]
    exact .gap h.before
  | cons p l ih =>
    obtain ⟨hg, hp, hne, htail⟩ := isLayout_cons.1 h
    rw [laidOut_cons]
    exact .word hg hp.2.1 hp.2.2 ((head_laidOut htail).2 hne) (ih htail)

theorem exists_isLayout_of_shows {ws : List Source} {s : Source} (h : Shows ws s) :
    ∃ g l, IsLayout g l ∧ l.map Prod.fst = ws.map Text.Latin.decode ∧ laidOut g l = s := by
  induction h with
  | @gap g hg => exact ⟨g, [], ⟨hg, nofun, nofun, nofun⟩, rfl, by simp [laidOut]⟩
  | @word g w s ws hg hne hw hs _ ih =>
    obtain ⟨g', l, hl, hfst, rfl⟩ := ih
    refine ⟨g, (Text.Latin.decode w, g') :: l, ?_, ?_, ?_⟩
    · exact isLayout_cons.2 ⟨hg, isToken_decode ⟨hne, hw⟩, (head_laidOut hl).1 hs, hl⟩
    · rw [List.map_cons, List.map_cons, hfst]
    · rw [laidOut_cons, ofText_decode]

/-- **Laid out and read**: the words of what is laid out are those that were laid out. -/
theorem tokens_laidOut {g : Source} {l : List (String × Source)} (h : IsLayout g l) :
    (laidOut g l).tokens = l.map Prod.fst := by
  rw [tokens, words_of_shows (shows_of_isLayout h), List.map_map]
  apply List.map_congr_left
  intro p hp
  exact decode_ofText_of_lt (h.tokens p hp).1

/-- **Read and laid out**: a source is laid out from its words, and from no other ones. -/
theorem tokens_eq_iff {s : Source} {ts : List String} :
    s.tokens = ts ↔ ∃ g l, IsLayout g l ∧ l.map Prod.fst = ts ∧ laidOut g l = s := by
  constructor
  · rintro rfl
    exact exists_isLayout_of_shows (shows_words s)
  · rintro ⟨g, l, h, rfl, rfl⟩
    exact tokens_laidOut h

/-! ## Bytes of words -/

theorem flatten_of_shows {ws : List Source} {s : Source} (h : Shows ws s) :
    ws.flatten = s.filter (!isSeparator ·) := by
  induction h with
  | gap hg =>
    rw [List.flatten_nil, eq_comm, List.filter_eq_nil_iff]
    intro b hb
    simp [hg b hb]
  | @word g w s ws hg _ hw _ _ ih =>
    have hnone : g.filter (!isSeparator ·) = [] := by
      rw [List.filter_eq_nil_iff]
      intro b hb
      simp [hg b hb]
    have hall : w.filter (!isSeparator ·) = w := by
      rw [List.filter_eq_self]
      intro b hb
      simp [hw b hb]
    rw [List.filter_append, List.filter_append, hnone, hall, List.flatten_cons, ih, List.nil_append]

/-- **Nothing is lost** but the separators. -/
theorem join_tokens (s : Source) :
    String.join s.tokens = Text.Latin.decode (s.filter (!isSeparator ·)) := by
  apply String.toList_inj.1
  rw [String.toList_join, tokens, List.flatMap_map, Text.Latin.toList_decode,
    ← flatten_of_shows (shows_words s), List.map_flatten, ← List.flatMap_def]
  simp only [Text.Latin.toList_decode]

/-- Each word takes up two bytes, one of them with the separator before it. The first word can do
without a separator. -/
theorem length_of_shows {ws : List Source} {s : Source} (h : Shows ws s) :
    2 * ws.length ≤ s.length + 1 ∧
      ((∀ b ∈ s.head?, isSeparator b = true) → 2 * ws.length ≤ s.length) := by
  induction h with
  | gap => simp
  | @word g w s ws hg hne hw hs _ ih =>
    have hpos := List.length_pos_iff.2 hne
    have hrest := ih.2 hs
    simp only [List.length_cons, List.length_append]
    refine ⟨by omega, fun hhead => ?_⟩
    have hg : g ≠ [] := by
      rintro rfl
      obtain ⟨b, v, rfl⟩ := List.exists_cons_of_ne_nil hne
      have hb : isSeparator b = true := hhead b rfl
      rw [hw b List.mem_cons_self] at hb
      cases hb
    have hgpos := List.length_pos_iff.2 hg
    omega

theorem length_tokens (s : Source) : 2 * s.tokens.length ≤ s.length + 1 := by
  rw [tokens, List.length_map]
  exact (length_of_shows (shows_words s)).1

/-- **Words and layouts.** The words of a source are the one list of words that it is laid out from.
Put together they are the source without its separators, and there are at most half as many of them
as bytes and one more. Conversely, any words that are laid out, with whatever separators, are read
back as they were. -/
theorem tokens_of_layouts :
    (∀ (s : Source) (ts : List String),
        s.tokens = ts ↔ ∃ g l, IsLayout g l ∧ l.map Prod.fst = ts ∧ laidOut g l = s) ∧
      (∀ s : Source, String.join s.tokens = Text.Latin.decode (s.filter (!isSeparator ·))) ∧
      (∀ s : Source, 2 * s.tokens.length ≤ s.length + 1) ∧
      ∀ (g : Source) (l : List (String × Source)), IsLayout g l →
        (laidOut g l).tokens = l.map Prod.fst := by
  refine ⟨fun s ts => tokens_eq_iff, join_tokens, length_tokens, ?_⟩
  intro g l h
  exact tokens_laidOut h

/-- Three words, the last one a character beyond ASCII that is blank but no separator. -/
theorem tokens_of_layouts_of_three :
    let l := [("mov", ofText " "), ("%ax", ofText ",\t("), ("\u00a0", [])]
    IsLayout (ofText "\n") l ∧
      (laidOut (ofText "\n") l).tokens = ["mov", "%ax", "\u00a0"] := by
  intro l
  have h : IsLayout (ofText "\n") l := by decide
  exact ⟨h, tokens_of_layouts.2.2.2 _ l h⟩

end AsmDialect.Source
