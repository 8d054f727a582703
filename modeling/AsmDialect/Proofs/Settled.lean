import Mathlib.Data.List.Nodup
import Mathlib.Tactic.TFAE
import AsmDialect.Profile.Answer
import AsmDialect.Proofs.Source.Segments
/-!
# Settled profiles

A profile is written by what belongs to its instruction set, so profiles in general are not told
apart by what is written of them. Those of sources are: a source has nothing of x86 in its profile
once it has ARM code, and nothing of VFP without. Main statements: the clues of a source can be any
clues (`clues_spelled`), so the profiles of sources are the settled ones (`profile_settled`,
`exists_source_of_settled`), and the answer line and the report of a source each tell its profile
(`written_tells_profile`).
-/

namespace AsmDialect

namespace Profile

/-- The settled profiles of ARM code. -/
def armProfiles : List Profile := [false, true].map fun vfp => { isa := .arm, vfp }

/-- The settled profiles of x86 code. -/
def x86Profiles : List Profile :=
  [Dialect.intel, .att].flatMap fun dialect =>
    [OperandWidth.word, .dword, .qword].flatMap fun width =>
      [false, true].map fun x87 => { dialect, width, x87 }

/-- All settled profiles. -/
def settledProfiles : List Profile := armProfiles ++ x86Profiles

theorem mem_settledProfiles {p : Profile} : p ∈ settledProfiles ↔ p.Settled := by
  rcases p with ⟨isa, vfp, dialect, width, x87⟩
  cases isa <;> cases vfp <;> cases dialect <;> cases width <;> cases x87 <;> decide

theorem settled_ofClues (ks : List Clue) : (ofClues ks).Settled := by
  rw [ofClues_eq]
  split
  · exact ⟨fun _ => ⟨rfl, rfl, rfl⟩, nofun⟩
  · exact ⟨nofun, fun _ => rfl⟩

/-! ## What is written -/

/-- What is written in a way that tells the listed profiles apart tells all settled ones apart. -/
theorem eq_of_written_eq {write : Profile → String} (h : (settledProfiles.map write).Nodup)
    {p q : Profile} (hp : p.Settled) (hq : q.Settled) : write p = write q ↔ p = q :=
  ⟨List.inj_on_of_nodup_map h (mem_settledProfiles.2 hp) (mem_settledProfiles.2 hq),
    congrArg write⟩

theorem answer_eq_iff {p q : Profile} (hp : p.Settled) (hq : q.Settled) :
    p.answer = q.answer ↔ p = q :=
  eq_of_written_eq (by decide) hp hq

theorem report_eq_iff {p q : Profile} (hp : p.Settled) (hq : q.Settled) :
    p.report = q.report ↔ p = q :=
  eq_of_written_eq (by decide) hp hq

/-! ## Clues for a profile -/

/-- Clues that a settled profile can come from. -/
def telling (p : Profile) : List Clue :=
  match p.isa with
  | .arm => [.mnemonic (if p.vfp then .vldr else .ldr)]
  | .x86 =>
    .register (.general p.width .ax) (p.dialect = .att) :: if p.x87 then [.mnemonic .fld] else []

theorem ofClues_telling {p : Profile} (h : p.Settled) : ofClues p.telling = p := by
  have hall : ∀ q ∈ settledProfiles, ofClues q.telling = q := by decide
  exact hall p (mem_settledProfiles.2 h)

end Profile

namespace Source

/-! ## Sources with given clues -/

/-- Clues as a source, with a space after each. -/
def spelled (ks : List Clue) : Source := ks.flatMap fun k => ofText k.text ++ [' '.toUInt8]

/-- How a clue is written needs no preparation. -/
theorem isPlain_text (k : Clue) :
    nul ∉ ofText k.text ∧ quote ∉ ofText k.text ∧ (ofText k.text).lower = ofText k.text := by
  have hall : ∀ t ∈ Vocabulary.recognised,
      nul ∉ ofText t ∧ quote ∉ ofText t ∧ (ofText t).lower = ofText t := by
    decide
  exact hall k.text (Vocabulary.mem_recognised.2 ⟨k, rfl⟩)

theorem clues_text (k : Clue) : (ofText k.text).clues = [k] := by
  obtain ⟨hn, hq, hl⟩ := isPlain_text k
  have ht : k.text ∈ Vocabulary.recognised := Vocabulary.mem_recognised.2 ⟨k, rfl⟩
  have hw := isWord_ofText ht
  rw [clues, prepared_of_plain hn hq, hl, tokens, words_eq_singleton hw.1 hw.2, List.map_singleton,
    decode_ofText ht, Clue.ofTokens, List.filterMap_cons, Clue.ofToken?_text]
  rfl

/-- **Any clues are those of a source.** -/
theorem clues_spelled (ks : List Clue) : (spelled ks).clues = ks := by
  induction ks with
  | nil => rfl
  | cons k ks ih =>
    obtain ⟨hn, hq, -⟩ := isPlain_text k
    have hseg : IsSegment (ofText k.text) := ⟨hn, even_quotes_of_not_mem hq⟩
    have hgap : IsGap [' '.toUInt8] := ⟨by simp, List.forall_mem_singleton.2 rfl⟩
    have hcons : spelled (k :: ks) = ofText k.text ++ [' '.toUInt8] ++ spelled ks := rfl
    rw [hcons, clues_append hseg hgap, clues_text, ih]
    rfl

theorem profile_settled (d : Source) : d.profile.Settled := by
  rw [profile_eq_ofClues]
  exact Profile.settled_ofClues _

theorem exists_source_of_settled {p : Profile} (h : p.Settled) : ∃ d : Source, d.profile = p := by
  refine ⟨spelled p.telling, ?_⟩
  rw [profile_eq_ofClues, clues_spelled, Profile.ofClues_telling h]

/-- **What is written of a source** tells its profile, on the answer line as well as in the report.
This is so because the profiles of sources are the settled ones, of which there are fourteen; among
all profiles there are some of which the same is written. -/
theorem written_tells_profile :
    (∀ d : Source, d.profile.Settled) ∧
      (∀ p : Profile, p.Settled → ∃ d : Source, d.profile = p) ∧
      (∃ ps : List Profile, ps.Nodup ∧ ps.length = 14 ∧ ∀ p : Profile, p ∈ ps ↔ p.Settled) ∧
      (∀ d e : Source, List.TFAE [d.profile.answer = e.profile.answer,
        d.profile.report = e.profile.report, d.profile = e.profile]) ∧
      ∃ p q : Profile, p ≠ q ∧ p.answer = q.answer ∧ p.report = q.report := by
  refine ⟨profile_settled, fun p h => exists_source_of_settled h, ?_, ?_, ?_⟩
  · exact ⟨Profile.settledProfiles, by decide, rfl, fun p => Profile.mem_settledProfiles⟩
  · intro d e
    have hanswer := Profile.answer_eq_iff d.profile_settled e.profile_settled
    have hreport := Profile.report_eq_iff d.profile_settled e.profile_settled
    tfae_have 1 ↔ 3 := hanswer
    tfae_have 2 ↔ 3 := hreport
    tfae_finish
  · exact ⟨{ vfp := true }, {}, by decide, rfl, rfl⟩

/-- 64-bit code in AT&T notation that uses the x87. -/
theorem written_tells_profile_of_att :
    let p : Profile := { dialect := .att, width := .qword, x87 := true }
    p.Settled ∧ ∃ d : Source, d.profile = p := by
  intro p
  have h : p.Settled := by decide
  exact ⟨h, written_tells_profile.2.1 p h⟩

end Source

end AsmDialect
