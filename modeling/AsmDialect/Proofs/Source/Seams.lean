import AsmDialect.Source.Occurrence
import AsmDialect.Source.Text
/-!
# Seams

A source can be read for words in two parts, if it is cut where no word is. A cut inside of a word
leaves its halves as words of either part, and putting the parts together puts the halves together
and changes nothing else. Main statements: the words of two parts where no word is cut
(`tokens_append_of_cutsNoWord`) and where one is (`tokens_append_of_cut`), and that the former are
the only parts whose words add up (`tokens_at_seam`).
-/

namespace AsmDialect.Source

/-- Whether no word reaches across the seam of two parts: one of them is empty, or there is a
separator on one side of the seam. -/
def CutsNoWord (a b : Source) : Prop :=
  a = [] ∨ b = [] ∨ (∃ x ∈ a.getLast?, isSeparator x = true) ∨ ∃ x ∈ b.head?, isSeparator x = true

instance (a b : Source) : Decidable (CutsNoWord a b) :=
  decidable_of_iff
    (a = [] ∨ b = [] ∨ a.getLast?.any isSeparator = true ∨ b.head?.any isSeparator = true)
    (by simp only [CutsNoWord, Option.any_eq_true, Option.mem_def])

/-! ## The words next to a seam -/

theorem IsWord.append {v w : Source} (hv : IsWord v) (hw : IsWord w) : IsWord (v ++ w) :=
  ⟨List.append_ne_nil_of_left_ne_nil hv.1 w, List.forall_mem_append.2 ⟨hv.2, hw.2⟩⟩

/-- A source that starts with no separator starts with a word. -/
theorem exists_first_word {b : Source} (hne : b ≠ [])
    (h : ∀ x ∈ b.head?, isSeparator x = false) :
    ∃ w r, b = w ++ r ∧ IsWord w ∧ ∀ x ∈ r.head?, isSeparator x = true := by
  have hsplit := List.takeWhile_append_dropWhile (p := (!isSeparator ·)) (l := b)
  refine ⟨_, _, hsplit.symm, ⟨?_, ?_⟩, ?_⟩
  · obtain ⟨x, b, rfl⟩ := List.exists_cons_of_ne_nil hne
    simp [h x rfl]
  · intro x hx
    simpa using List.all_eq_true.1 List.all_takeWhile x hx
  · intro x hx
    have hnot := List.head?_dropWhile_not (!isSeparator ·) b
    rw [Option.mem_def.1 hx] at hnot
    simpa using hnot

/-- A source that ends with no separator ends with a word. -/
theorem exists_last_word {a : Source} (hne : a ≠ [])
    (h : ∀ x ∈ a.getLast?, isSeparator x = false) :
    ∃ l v, a = l ++ v ∧ IsWord v ∧ ∀ x ∈ l.getLast?, isSeparator x = true := by
  have hrev : ∀ x ∈ a.reverse.head?, isSeparator x = false := by
    rwa [List.head?_reverse]
  obtain ⟨w, r, heq, hw, hr⟩ := exists_first_word (by simpa using hne) hrev
  refine ⟨r.reverse, w.reverse, ?_, ⟨by simpa using hw.1, by simpa using hw.2⟩, ?_⟩
  · rw [← List.reverse_append, ← heq, List.reverse_reverse]
  · rwa [List.getLast?_reverse]

theorem words_of_last_word {l v : Source} (hv : IsWord v)
    (hl : ∀ x ∈ l.getLast?, isSeparator x = true) : words (l ++ v) = words l ++ [v] := by
  rw [words_append_of_ends_in_separator hl, words_eq_singleton hv.1 hv.2]

theorem words_of_first_word {w r : Source} (hw : IsWord w)
    (hr : ∀ x ∈ r.head?, isSeparator x = true) : words (w ++ r) = w :: words r := by
  rw [words_append_of_starts_with_separator hr, words_eq_singleton hw.1 hw.2]
  rfl

/-! ## Two parts -/

/-- **No word is cut**: the words of the parts are those of the whole. -/
theorem tokens_append_of_cutsNoWord {a b : Source} (h : CutsNoWord a b) :
    (a ++ b).tokens = a.tokens ++ b.tokens := by
  have hwords : words (a ++ b) = words a ++ words b := by
    rcases h with rfl | rfl | ⟨x, hx, hsep⟩ | ⟨x, hx, hsep⟩
    · rw [words_nil, List.nil_append, List.nil_append]
    · rw [words_nil, List.append_nil, List.append_nil]
    · apply words_append_of_ends_in_separator
      intro y hy
      rwa [Option.mem_unique hy hx]
    · apply words_append_of_starts_with_separator
      intro y hy
      rwa [Option.mem_unique hy hx]
  rw [tokens, hwords, List.map_append]
  rfl

/-- **A word is cut**: its halves are the last word of the one part and the first word of the other,
and only they are put together. -/
theorem tokens_append_of_cut {a b : Source} (h : ¬ CutsNoWord a b) :
    ∃ ts t u us, a.tokens = ts ++ [t] ∧ b.tokens = u :: us ∧
      (a ++ b).tokens = ts ++ (t ++ u) :: us := by
  simp only [CutsNoWord, not_or, not_exists, not_and, Bool.not_eq_true] at h
  obtain ⟨ha, hb, hlast, hhead⟩ := h
  obtain ⟨l, v, rfl, hv, hl⟩ := exists_last_word ha hlast
  obtain ⟨w, r, rfl, hw, hr⟩ := exists_first_word hb hhead
  have hwhole : words (l ++ v ++ (w ++ r)) = words l ++ (v ++ w) :: words r := by
    have hparts : l ++ v ++ (w ++ r) = l ++ ((v ++ w) ++ r) := by simp
    rw [hparts, words_append_of_ends_in_separator hl, words_of_first_word (hv.append hw) hr]
  refine ⟨l.tokens, Text.Latin.decode v, Text.Latin.decode w, r.tokens, ?_, ?_, ?_⟩
  · rw [tokens, words_of_last_word hv hl, List.map_append]
    rfl
  · rw [tokens, words_of_first_word hw hr, List.map_cons]
    rfl
  · rw [tokens, hwhole, List.map_append, List.map_cons, Text.Latin.decode_append]
    rfl

/-- **Words at a seam.** The words of two parts are those of the whole just where no word is cut:
one of the parts is empty, the first ends in a separator or the second starts with one. Anywhere
else, the last word of the first part and the first word of the second are one word of the whole,
and all other words stay as they are. -/
theorem tokens_at_seam :
    (∀ a b : Source, (a ++ b).tokens = a.tokens ++ b.tokens ↔ CutsNoWord a b) ∧
      ∀ a b : Source, ¬ CutsNoWord a b →
        ∃ ts t u us, a.tokens = ts ++ [t] ∧ b.tokens = u :: us ∧
          (a ++ b).tokens = ts ++ (t ++ u) :: us := by
  refine ⟨fun a b => ⟨?_, tokens_append_of_cutsNoWord⟩, fun a b => tokens_append_of_cut⟩
  intro h
  apply Decidable.by_contra
  intro hcut
  obtain ⟨ts, t, u, us, ha, hb, hab⟩ := tokens_append_of_cut hcut
  -- there is a word less in the whole than in the parts
  have hlength := congrArg List.length (hab.symm.trans h)
  simp only [ha, hb, List.length_append, List.length_cons, List.length_nil] at hlength
  omega

/-- The name of a register is cut in two, and no name is cut behind the comma. -/
theorem tokens_at_seam_in_name :
    let a := ofText "mov %e"
    let b := ofText "ax,"
    let c := ofText "0"
    ¬ CutsNoWord a b ∧ (a ++ b).tokens = ["mov", "%eax"] ∧
      CutsNoWord (a ++ b) c ∧ (a ++ b ++ c).tokens = ["mov", "%eax", "0"] := by
  intro a b c
  obtain ⟨hsame, hcut⟩ := tokens_at_seam
  have hin : ¬ CutsNoWord a b := by decide
  have hbehind : CutsNoWord (a ++ b) c := by decide
  obtain ⟨ts, t, u, us, ha, hb, hab⟩ := hcut a b hin
  have ha' : ["mov"] ++ ["%e"] = ts ++ [t] := (show a.tokens = _ by decide).symm.trans ha
  have hb' : ["ax"] = u :: us := (show b.tokens = _ by decide).symm.trans hb
  obtain ⟨rfl, ht⟩ := List.append_inj' ha' rfl
  cases ht
  cases hb'
  refine ⟨hin, hab, hbehind, ?_⟩
  rw [(hsame (a ++ b) c).2 hbehind, hab]
  decide

end AsmDialect.Source
