import AsmDialect.Proofs.Profile.Gains
import AsmDialect.Proofs.Profile.Words
/-!
# Loads and stores among words

The search for ARM code ends in one of two ways. At a load or store of VFP it breaks off, because
there is nothing left to find, and says on the spot that the code is ARM. At the end of the words it
says what the profile says by then, which may be known from before. Main statements: either way the
search comes to what going through all words comes to (`scanArm_eq_foldl`), and its findings and its
answer are told by which mnemonics there are among the words (`scanArm_of_mnemonics`).
-/

namespace AsmDialect.Profile

/-! ## Word by word -/

/-- The profile after a word, looked at whatever the profile has already. -/
def heed (p : Profile) (t : String) : Profile :=
  if t = "vldr" ∨ t = "vstr" then { p with isa := .arm, vfp := true }
  else if t = "ldr" ∨ t = "str" then { p with isa := .arm }
  else p

theorem any_vfp_iff {ts : List String} :
    (Clue.ofTokens ts).any (Clue.isOf .vfp) = true ↔ "vldr" ∈ ts ∨ "vstr" ∈ ts := by
  have hnames : (Mnemonic.ofFamily .vfp).map spelling = ["vldr", "vstr"] := rfl
  rw [Vocabulary.any_isOf_iff, hnames]
  simp

theorem any_arm_iff {ts : List String} :
    (Clue.ofTokens ts).any (Clue.isOf .arm) = true ↔ "ldr" ∈ ts ∨ "str" ∈ ts := by
  have hnames : (Mnemonic.ofFamily .arm).map spelling = ["ldr", "str"] := rfl
  rw [Vocabulary.any_isOf_iff, hnames]
  simp

theorem any_tellsArm_iff {ts : List String} :
    (Clue.ofTokens ts).any Clue.tellsArm = true ↔
      "ldr" ∈ ts ∨ "str" ∈ ts ∨ "vldr" ∈ ts ∨ "vstr" ∈ ts := by
  rw [any_tellsArm, Bool.or_eq_true, any_arm_iff, any_vfp_iff, or_assoc]

/-- One word looked at adds the gain of a search in this word alone. -/
theorem heed_eq_gain (p : Profile) (t : String) :
    p.heed t = p.gain (.ofArm (Clue.ofTokens [t])) := by
  have hvfp : (Clue.ofTokens [t]).any (Clue.isOf .vfp) = true ↔ t = "vldr" ∨ t = "vstr" := by
    simp only [any_vfp_iff, List.mem_singleton, @eq_comm _ t]
  have harm : (Clue.ofTokens [t]).any (Clue.isOf .arm) = true ↔ t = "ldr" ∨ t = "str" := by
    simp only [any_arm_iff, List.mem_singleton, @eq_comm _ t]
  rw [heed, Gain.ofArm, any_tellsArm]
  split
  next h => simp [gain, hvfp.2 h, OperandWidth.max_word]
  next h =>
    rw [← hvfp, Bool.not_eq_true] at h
    split
    next ha => simp [gain, h, harm.2 ha, OperandWidth.max_word]
    next ha =>
      rw [← harm, Bool.not_eq_true] at ha
      simp [gain, h, ha, OperandWidth.max_word]

/-- **Breaking off does not show**: the search comes to what all words come to, one by one, and says
whether the code is ARM by then. -/
theorem scanArm_eq_foldl (p : Profile) (ts : List String) :
    p.scanArm (Clue.ofTokens ts) =
      (decide ((ts.foldl heed p).isa = .arm), ts.foldl heed p) := by
  have hprofile : (p.scanArm (Clue.ofTokens ts)).2 = ts.foldl heed p := by
    rw [scanArm_eq_gain, foldl_eq_gain heed_eq_gain rfl Gain.ofArm_append]
  rw [scanArm_eq] at hprofile ⊢
  rw [← hprofile]

/-! ## By the mnemonics there are -/

theorem isa_withArm_iff {p : Profile} {ts : List String} :
    (p.withArm (Clue.ofTokens ts)).isa = .arm ↔
      p.isa = .arm ∨ "ldr" ∈ ts ∨ "str" ∈ ts ∨ "vldr" ∈ ts ∨ "vstr" ∈ ts := by
  rw [withArm, ← any_tellsArm_iff]
  simp only
  split
  next h => simp [h]
  next h => simp [h]

theorem vfp_withArm_iff {p : Profile} {ts : List String} :
    (p.withArm (Clue.ofTokens ts)).vfp = true ↔ p.vfp = true ∨ "vldr" ∈ ts ∨ "vstr" ∈ ts := by
  rw [withArm, ← any_vfp_iff, Bool.or_eq_true]

/-- A search that meets a load or store of VFP breaks off there. What comes after is not looked at,
and what came before can have changed no more than what is set here. -/
theorem scanArm_of_vfp {ts : List String} (h : "vldr" ∈ ts ∨ "vstr" ∈ ts) (p : Profile) :
    p.scanArm (Clue.ofTokens ts) = (true, { p with isa := .arm, vfp := true }) := by
  have hvfp := any_vfp_iff.2 h
  simp [scanArm_eq, withArm, any_tellsArm, hvfp]

/-- A search that meets none gets to the end of the words. -/
theorem scanArm_of_no_vfp {ts : List String} (h : ¬ ("vldr" ∈ ts ∨ "vstr" ∈ ts)) (p : Profile) :
    p.scanArm (Clue.ofTokens ts) =
      if "ldr" ∈ ts ∨ "str" ∈ ts then (true, { p with isa := .arm })
      else (decide (p.isa = .arm), p) := by
  rw [← any_vfp_iff, Bool.not_eq_true] at h
  simp only [scanArm_eq, withArm, any_tellsArm, h, ← any_arm_iff, Bool.or_false]
  split
  · rfl
  · rfl

/-- **The findings on ARM code**, wherever the mnemonics stand. The code is ARM if it was before or
if there is a load or store of ARM; it uses VFP if it did before or if there is one of VFP; nothing
else changes. The search says whether the code is ARM by then, when it breaks off at one of VFP as
well as when it gets to the end. So it would if every word was looked at. -/
theorem scanArm_of_mnemonics (p : Profile) (ts : List String) :
    let found := (p.scanArm (Clue.ofTokens ts)).1
    let q := (p.scanArm (Clue.ofTokens ts)).2
    (q.isa = .arm ↔
        p.isa = .arm ∨ "ldr" ∈ ts ∨ "str" ∈ ts ∨ "vldr" ∈ ts ∨ "vstr" ∈ ts) ∧
      (q.vfp = true ↔ p.vfp = true ∨ "vldr" ∈ ts ∨ "vstr" ∈ ts) ∧
      q.dialect = p.dialect ∧ q.width = p.width ∧ q.x87 = p.x87 ∧
      (found = true ↔ q.isa = .arm) ∧
      q = ts.foldl heed p ∧
      ("vldr" ∈ ts ∨ "vstr" ∈ ts → found = true ∧ q = { p with isa := .arm, vfp := true }) ∧
      (¬ ("vldr" ∈ ts ∨ "vstr" ∈ ts) →
        (found, q) = if "ldr" ∈ ts ∨ "str" ∈ ts then (true, { p with isa := .arm })
          else (decide (p.isa = .arm), p)) := by
  intro found q
  have hscan : (found, q) = (decide ((p.withArm (Clue.ofTokens ts)).isa = .arm),
      p.withArm (Clue.ofTokens ts)) := scanArm_eq p (Clue.ofTokens ts)
  obtain ⟨hfound, hq⟩ := Prod.mk.inj hscan
  refine ⟨?_, ?_, ?_, ?_, ?_, ?_, ?_, ?_, ?_⟩
  · rw [hq]
    exact isa_withArm_iff
  · rw [hq]
    exact vfp_withArm_iff
  · rw [hq]
    rfl
  · rw [hq]
    rfl
  · rw [hq]
    rfl
  · rw [hfound, hq, decide_eq_true_iff]
  · exact congrArg Prod.snd (scanArm_eq_foldl p ts)
  · intro h
    exact Prod.mk.inj (scanArm_of_vfp h p)
  · intro h
    exact scanArm_of_no_vfp h p

/-- A load of VFP between others, and a profile of x86 code that has VFP already. -/
theorem scanArm_of_mnemonics_between_loads :
    let p : Profile := { vfp := true, dialect := .att, x87 := true }
    let ts := ["eldr", "str", "vldr", "ldr", "vldr."]
    let us := ["%ldr", "vfld"]
    ("vldr" ∈ ts ∨ "vstr" ∈ ts) ∧
      p.scanArm (Clue.ofTokens ts) = (true, { p with isa := .arm }) ∧
      ¬ ("vldr" ∈ us ∨ "vstr" ∈ us) ∧ p.scanArm (Clue.ofTokens us) = (false, p) := by
  intro p ts us
  have hts : "vldr" ∈ ts ∨ "vstr" ∈ ts := .inl (by decide)
  have hus : ¬ ("vldr" ∈ us ∨ "vstr" ∈ us) := by decide
  obtain ⟨-, -, -, -, -, -, -, hbroken, -⟩ := scanArm_of_mnemonics p ts
  obtain ⟨-, -, -, -, -, -, -, -, hend⟩ := scanArm_of_mnemonics p us
  refine ⟨hts, ?_, hus, hend hus⟩
  exact Prod.ext (hbroken hts).1 (hbroken hts).2

end AsmDialect.Profile
