import AsmDialect.Source.Occurrence
import AsmDialect.Survey
import AsmDialect.Proofs.Profile.Words
import AsmDialect.Proofs.Source.Preparation
/-!
# Sources in segments

A source that ends with no literal open and has no NUL is a segment: more source can follow it, with
separators in between, and neither half is read otherwise than on its own. What follows a segment is
under no restriction. Main statements: the clues of a segment and of what follows it add up
(`clues_append`), and segments one after another have the join of their profiles, whatever their
order and number (`profile_of_segments`).
-/

namespace AsmDialect.Source

/-- The clues in a source. -/
def clues (s : Source) : List Clue := Clue.ofTokens s.prepared.tokens

theorem profile_eq_ofClues (s : Source) : s.profile = Profile.ofClues s.clues := rfl

/-- Sources with the same words, once they are prepared, have the same clues. -/
theorem clues_congr {s t : Source} (h : s.prepared.words = t.prepared.words) :
    s.clues = t.clues := by
  rw [clues, clues, tokens, tokens, h]

/-- Whether a source is complete in itself: it has no NUL, and its last quote closes a literal. -/
structure IsSegment (a : Source) : Prop where
  nul_not_mem : nul ∉ a
  even_quotes : Even (quotes a)

/-- Whether bytes can stand between two segments. -/
structure IsGap (g : Source) : Prop where
  ne_nil : g ≠ []
  separates : ∀ b ∈ g, isSeparator b = true

theorem IsGap.nul_not_mem {g : Source} (hg : IsGap g) : nul ∉ g :=
  fun h => isSeparator_ne_nul (hg.separates _ h) rfl

theorem IsGap.quote_not_mem {g : Source} (hg : IsGap g) : quote ∉ g :=
  fun h => isSeparator_ne_quote (hg.separates _ h) rfl

theorem IsGap.prepared_append {g : Source} (hg : IsGap g) (s : Source) :
    (g ++ s).prepared = g ++ s.prepared := by
  have hl : g.lower = g := by
    have hid : ∀ b ∈ g, lowerByte b = id b :=
      fun b hb => lowerByte_of_isSeparator (hg.separates b hb)
    rw [lower, List.map_congr_left hid, List.map_id]
  rw [Source.prepared_append hg.nul_not_mem (.inl (even_quotes_of_not_mem hg.quote_not_mem)),
    prepared_of_plain hg.nul_not_mem hg.quote_not_mem, hl]

theorem IsGap.words_append {g : Source} (hg : IsGap g) (a s : Source) :
    words (a ++ (g ++ s)) = words a ++ words s := by
  obtain ⟨b, g', rfl⟩ := List.exists_cons_of_ne_nil hg.ne_nil
  have hb : isSeparator b = true := hg.separates b List.mem_cons_self
  rw [List.cons_append, words_append_cons hb,
    words_append_of_separators fun c hc => hg.separates c (List.mem_cons_of_mem b hc)]

/-- No word reaches across a gap that is before the end and in no literal. -/
theorem words_prepared_append {a g b : Source} (hn : nul ∉ a)
    (h : Even (quotes a) ∨ quote ∉ b.beforeNul) (hg : IsGap g) :
    (a ++ (g ++ b)).prepared.words = a.prepared.words ++ b.prepared.words := by
  have hgb : Even (quotes a) ∨ quote ∉ (g ++ b).beforeNul := by
    rw [beforeNul_append hg.nul_not_mem, List.mem_append, not_or]
    exact h.imp id fun hb => ⟨hg.quote_not_mem, hb⟩
  rw [prepared_append hn hgb, hg.prepared_append, hg.words_append]

/-- **A segment and what follows it** are read apart. -/
theorem clues_append {a g : Source} (ha : IsSegment a) (hg : IsGap g) (b : Source) :
    (a ++ g ++ b).clues = a.clues ++ b.clues := by
  rw [List.append_assoc, clues, tokens,
    words_prepared_append ha.nul_not_mem (.inl ha.even_quotes) hg, List.map_append,
    Clue.ofTokens_append]
  rfl

/-- Whether a source consists of the given parts in order, with a gap between two of them. -/
inductive Joins : List Source → Source → Prop
  | none : Joins [] []
  | one (a : Source) : Joins [a] a
  | more {a b g s : Source} {ss : List Source} (hg : IsGap g) (h : Joins (b :: ss) s) :
      Joins (a :: b :: ss) (a ++ g ++ s)

theorem clues_of_joins {ss : List Source} {s : Source} (h : Joins ss s)
    (hs : ∀ a ∈ ss, IsSegment a) : s.clues = ss.flatMap clues := by
  induction h with
  | none => rfl
  | one a => rw [List.flatMap_singleton]
  | more hg _ ih =>
    rw [clues_append (hs _ List.mem_cons_self) hg, ih fun c hc => hs c (List.mem_cons_of_mem _ hc)]
    rfl

/-- **The profile of segments.** A segment and what follows it after a gap have the join of the two
profiles. So the same segments have the same profile in any order and any number, and some segments
from the front on say no more than all of them. -/
theorem profile_of_segments :
    (∀ a g b : Source, IsSegment a → IsGap g →
        (a ++ g ++ b).profile = a.profile.join b.profile) ∧
      (∀ (ss us : List Source) (s u : Source), (∀ a ∈ ss, IsSegment a) → Joins ss s → Joins us u →
        (∀ a, a ∈ us ↔ a ∈ ss) → u.profile = s.profile) ∧
      ∀ (ss us : List Source) (s u : Source), (∀ a ∈ ss ++ us, IsSegment a) → Joins ss s →
        Joins (ss ++ us) u → s.profile.Below u.profile := by
  refine ⟨?_, ?_, ?_⟩
  · intro a g b ha hg
    rw [profile_eq_ofClues, clues_append ha hg, Profile.ofClues_append]
    rfl
  · intro ss us s u hseg hs hu hmem
    rw [profile_eq_ofClues, profile_eq_ofClues, clues_of_joins hs hseg,
      clues_of_joins hu fun a ha => hseg a ((hmem a).1 ha)]
    apply Profile.ofClues_congr
    intro k
    simp only [List.mem_flatMap, hmem]
  · intro ss us s u hseg hs hu
    rw [profile_eq_ofClues, profile_eq_ofClues, clues_of_joins hu hseg,
      clues_of_joins hs fun a ha => hseg a (List.mem_append_left us ha), List.flatMap_append]
    apply Profile.ofClues_below
    exact fun k hk => List.mem_append_left _ hk

/-- Two segments, the second once more in front, with a literal in the first one. -/
theorem profile_of_segments_repeated :
    let a := ofText "mov %eax \"ldr\""
    let b := ofText "FLD"
    let g := ofText ",\t"
    IsSegment a ∧ IsSegment b ∧ IsGap g ∧
      (b ++ g ++ (a ++ g ++ b)).profile = (a ++ g ++ b).profile ∧
      (a ++ g ++ b).profile = a.profile.join b.profile ∧
      a.profile.Below (a ++ g ++ b).profile := by
  intro a b g
  have ha : IsSegment a := ⟨by decide, by decide⟩
  have hb : IsSegment b := ⟨by decide, by decide⟩
  have hg : IsGap g := ⟨by decide, List.all_eq_true.1 (by decide)⟩
  have hs : ∀ c ∈ [a, b], IsSegment c := by
    simp only [List.mem_cons, List.not_mem_nil, or_false]
    rintro c (rfl | rfl)
    · exact ha
    · exact hb
  have hab : Joins [a, b] (a ++ g ++ b) := .more hg (.one b)
  have hmem (c : Source) : c ∈ [b, a, b] ↔ c ∈ [a, b] := by
    simp only [List.mem_cons, List.not_mem_nil, or_false]
    exact or_iff_right_of_imp .inr
  refine ⟨ha, hb, hg, ?_, ?_, ?_⟩
  · exact profile_of_segments.2.1 [a, b] [b, a, b] _ _ hs hab (.more hg hab) hmem
  · exact profile_of_segments.1 a g b ha hg
  · exact profile_of_segments.2.2 [a] [b] _ _ hs (.one a) hab

end AsmDialect.Source
