import Mathlib.Data.List.Forall2
import Mathlib.Logic.Relation
import AsmDialect.Proofs.Source.Segments
/-!
# Edits that do not show

Some changes to a source leave its profile as it is: in what follows the first NUL, in the case of
letters, in and around closed literals, and in the separators that are not part of a literal. A
literal may stand in the middle of a word, and a quote that nothing closes may come before or after
the place of the change. Main statements: an edit leaves the words of the prepared source alone
(`words_prepared_of_edit`), so any number of edits leave the profile alone (`profile_eq_of_edits`).
-/

namespace AsmDialect.Source

/-- Whether bytes can stand between the quotes of a closed literal. -/
structure IsContents (c : Source) : Prop where
  nul_not_mem : nul ∉ c
  quote_not_mem : quote ∉ c

/-- The literal with the given contents. -/
def literal (c : Source) : Source := quote :: (c ++ [quote])

/-- Whether a source is the given first part, a closed literal with the given contents, and the
rest. Quotes pair up from left to right, so no quote is open after the first part. -/
structure HasLiteral (s a c r : Source) : Prop where
  eq_append : s = a ++ literal c ++ r
  before : IsSegment a
  contents : IsContents c

/-- Whether a place in a source is in none of its closed literals. The quotes are part of them. -/
def Outside (s : Source) (i : Nat) : Prop :=
  ∀ a c r, HasLiteral s a c r → i < a.length ∨ (a ++ literal c).length ≤ i

/-- Whether two bytes are the same, or the capital and the small form of the same letter. -/
def SameLetter (b c : UInt8) : Prop :=
  b = c ∨ isCapital b = true ∧ c = b + 32 ∨ isCapital c = true ∧ b = c + 32

/-- The edits, each made at one place. Letters may change their case all over. -/
inductive Edit : Source → Source → Prop
  /-- What follows the first NUL is exchanged. -/
  | pastEnd {a x : Source} (y : Source) (ha : nul ∉ a) : Edit (a ++ nul :: x) (a ++ nul :: y)
  /-- A NUL is put at the end, with anything after it. -/
  | ended (s x : Source) : Edit s (s ++ nul :: x)
  /-- Letters change their case. -/
  | recased {s t : Source} (h : List.Forall₂ SameLetter s t) : Edit s t
  /-- A literal gets other contents. -/
  | refilled {s a c c' r : Source} (h : HasLiteral s a c r) (hc : IsContents c') :
      Edit s (a ++ literal c' ++ r)
  /-- A literal is left out. -/
  | erased {s a c r : Source} (h : HasLiteral s a c r) : Edit s (a ++ r)
  /-- A literal is put where no quote is open and no NUL came before. -/
  | inserted {a c r : Source} (ha : IsSegment a) (hc : IsContents c) :
      Edit (a ++ r) (a ++ literal c ++ r)
  /-- A separator outside of literals becomes a run of separators. -/
  | respaced {a g r : Source} {b : UInt8} (hb : isSeparator b = true)
      (h : Outside (a ++ b :: r) a.length) (hg : IsGap g) : Edit (a ++ b :: r) (a ++ g ++ r)

/-! ## Literals and letters -/

theorem prepared_literal {a c : Source} (ha : IsSegment a) (hc : IsContents c) (r : Source) :
    (a ++ literal c ++ r).prepared = a.prepared ++ r.prepared := by
  have hn : nul ∉ literal c := by
    have hq : nul ≠ quote := by decide
    simp [literal, hq, hc.nul_not_mem]
  have heven : Even (quotes (literal c)) := by
    rw [literal, quotes_cons_quote, quotes_append, quotes_of_not_mem hc.quote_not_mem]
    decide
  have hnone : (literal c).prepared = [] := by
    rw [prepared, beforeNul_of_not_mem hn, literal, withoutLiterals_literal hc.quote_not_mem]
    rfl
  rw [List.append_assoc, prepared_append ha.nul_not_mem (.inl ha.even_quotes),
    prepared_append hn (.inl heven), hnone, List.nil_append]

theorem lowerByte_add {b : UInt8} (h : isCapital b = true) : lowerByte b = lowerByte (b + 32) := by
  rw [lowerByte, lowerByte, if_pos h, isCapital_add h]
  rfl

theorem lowerByte_of_sameLetter {b c : UInt8} (h : SameLetter b c) : lowerByte b = lowerByte c := by
  rcases h with rfl | ⟨hb, rfl⟩ | ⟨hc, rfl⟩
  · rfl
  · exact lowerByte_add hb
  · exact (lowerByte_add hc).symm

theorem lower_of_sameLetters {s t : Source} (h : List.Forall₂ SameLetter s t) :
    s.lower = t.lower := by
  induction h with
  | nil => rfl
  | cons hbc _ ih =>
    simp only [lower, List.map_cons] at ih ⊢
    rw [lowerByte_of_sameLetter hbc, ih]

/-! ## Separators -/

/-- Where a separator is in no literal, no quote is open or none comes after: the last quote before
would pair up with the first one after. -/
theorem even_or_of_outside {a r : Source} {b : UInt8} (hb : isSeparator b = true)
    (h : Outside (a ++ b :: r) a.length) (hn : nul ∉ a) :
    Even (quotes a) ∨ quote ∉ r.beforeNul := by
  rw [or_iff_not_imp_left]
  intro hq hr
  obtain ⟨l, m, rfl, hl, hm⟩ := exists_open_quote hq
  obtain ⟨c, r', hsplit, hc⟩ := List.eq_append_cons_of_mem hr
  have hnr : nul ∉ c ++ quote :: r' := hsplit ▸ nul_not_mem_beforeNul r
  rw [List.mem_append, List.mem_cons, not_or, not_or] at hn hnr
  have hcontents : IsContents (m ++ b :: c) := by
    constructor
    · rw [List.mem_append, List.mem_cons, not_or, not_or]
      exact ⟨hn.2.2, (isSeparator_ne_nul hb).symm, hnr.1⟩
    · rw [List.mem_append, List.mem_cons, not_or, not_or]
      exact ⟨hm, (isSeparator_ne_quote hb).symm, hc⟩
  have hsource : l ++ quote :: m ++ b :: r =
      l ++ literal (m ++ b :: c) ++ (r' ++ r.dropWhile (· != nul)) := by
    have hrest : r = c ++ quote :: r' ++ r.dropWhile (· != nul) := by
      rw [← hsplit]
      exact List.takeWhile_append_dropWhile.symm
    conv_lhs => rw [hrest]
    simp [literal]
  rcases h _ _ _ ⟨hsource, ⟨hn.1, hl⟩, hcontents⟩ with hlt | hle
  · simp only [List.length_append, List.length_cons] at hlt
    omega
  · simp only [literal, List.length_append, List.length_cons] at hle
    omega

theorem words_prepared_of_mem_nul {a : Source} (h : nul ∈ a) (s : Source) :
    (a ++ s).prepared.words = a.prepared.words := by
  rw [prepared, beforeNul_append_of_mem h]
  rfl

/-- The words on either side of a gap that is in no literal do not depend on the gap. -/
theorem words_prepared_respaced {a g r : Source} {b : UInt8} (hb : isSeparator b = true)
    (h : Outside (a ++ b :: r) a.length) (hg : IsGap g) :
    (a ++ b :: r).prepared.words = (a ++ g ++ r).prepared.words := by
  have hone : IsGap [b] := ⟨by simp, by simpa using hb⟩
  rw [List.append_assoc, ← List.singleton_append]
  by_cases hn : nul ∈ a
  · rw [words_prepared_of_mem_nul hn, words_prepared_of_mem_nul hn]
  · have hcut := even_or_of_outside hb h hn
    rw [words_prepared_append hn hcut hone, words_prepared_append hn hcut hg]

/-! ## Edits -/

theorem words_prepared_of_edit {s t : Source} (h : Edit s t) :
    s.prepared.words = t.prepared.words := by
  cases h with
  | pastEnd y ha =>
    rw [prepared, prepared, beforeNul_append_nul_cons, beforeNul_append_nul_cons]
  | ended _ x => rw [prepared, prepared, beforeNul_append_nul_cons]
  | recased h => rw [prepared_eq_lower_first, prepared_eq_lower_first, lower_of_sameLetters h]
  | refilled h hc =>
    rw [h.eq_append, prepared_literal h.before h.contents, prepared_literal h.before hc]
  | @erased _ a c r h =>
    rw [h.eq_append, prepared_literal h.before h.contents,
      prepared_append h.before.nul_not_mem (.inl h.before.even_quotes)]
  | inserted ha hc =>
    rw [prepared_literal ha hc, prepared_append ha.nul_not_mem (.inl ha.even_quotes)]
  | respaced hb h hg => exact words_prepared_respaced hb h hg

/-- **What does not show**: however a source is edited, its profile stays the same. -/
theorem profile_eq_of_edits {s t : Source} (h : Relation.ReflTransGen Edit s t) :
    s.profile = t.profile := by
  induction h with
  | refl => rfl
  | tail _ hedit ih =>
    rw [ih, profile_eq_ofClues, profile_eq_ofClues, clues_congr (words_prepared_of_edit hedit)]

/-- A capital more, a literal less, a space before the comma, and ARM code after the end. -/
theorem profile_eq_of_edits_four :
    Relation.ReflTransGen Edit (ofText "fLD\"ldr\",bp") (ofText "FLD ,bp" ++ nul :: ofText "ldr") ∧
      (ofText "fLD\"ldr\",bp").profile =
        (ofText "FLD ,bp" ++ nul :: ofText "ldr").profile := by
  have hcase : List.Forall₂ SameLetter (ofText "fLD\"ldr\",bp") (ofText "FLD\"ldr\",bp") :=
    .cons (.inr (.inr ⟨rfl, rfl⟩)) (List.forall₂_same.2 fun _ _ => .inl rfl)
  have hliteral :
      HasLiteral (ofText "FLD\"ldr\",bp") (ofText "FLD") (ofText "ldr") (ofText ",bp") :=
    ⟨rfl, ⟨by decide, by decide⟩, ⟨by decide, by decide⟩⟩
  have hcomma : Outside (ofText "FLD" ++ ','.toUInt8 :: ofText "bp") 3 := by
    intro a c r h
    have hq : quote ∈ a ++ literal c ++ r := by simp [literal]
    rw [← h.eq_append] at hq
    exact absurd hq (by decide)
  have hspace : IsGap (ofText " ,") := ⟨by decide, List.all_eq_true.1 (by decide)⟩
  have h : Relation.ReflTransGen Edit (ofText "fLD\"ldr\",bp")
      (ofText "FLD ,bp" ++ nul :: ofText "ldr") :=
    .head (.recased hcase) <| .head (.erased hliteral) <|
      .head (.respaced rfl hcomma hspace) <| .single (.ended _ _)
  exact ⟨h, profile_eq_of_edits h⟩

end AsmDialect.Source
