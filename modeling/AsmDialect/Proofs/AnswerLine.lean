import AsmDialect.Proofs.Profile.Words
import AsmDialect.Proofs.Source.Places
import AsmDialect.Proofs.Stream.Requests
/-!
# What a run writes

The answer line of a source, read off the positions of words in it: no words are cut out, no clues
collected, and nothing is scanned twice or broken off. Main statements: the line is the one that is
written for what the words add up to (`answerLine_eq`), and a run on whatever stream delivers a
source writes it (`run_writes_answerLine`).
-/

namespace AsmDialect

namespace Source

/-- The number of bits that register names in a prepared source ask for. -/
def operandBits (p : Source) : Nat :=
  if p.HasAny (Vocabulary.qwordNames ++ Vocabulary.marked Vocabulary.qwordNames) then 64
  else if p.HasAny (Vocabulary.dwordNames ++ Vocabulary.marked Vocabulary.dwordNames) then 32
  else 16

/-- The answer line of a prepared source, with its line end. -/
def answerLine (p : Source) : String :=
  if p.HasAny ["vldr", "vstr"] then "0 1\n"
  else if p.HasAny ["ldr", "str"] then "0 0\n"
  else
    let att := if p.HasAny (Vocabulary.marked Vocabulary.registerNames) then "1" else "0"
    let x87 := if p.HasAny ["finit", "fld", "fst"] then "1" else "0"
    "86 " ++ att ++ " " ++ x87 ++ " " ++ toString p.operandBits ++ "\n"

end Source

namespace Vocabulary

/-! ## Words of a finding -/

theorem mem_marked_iff (t : String) :
    t ∈ marked registerNames ↔ ∃ k : Clue, k.isMarked = true ∧ k.text = t := by
  rw [mem_marked_registerNames]
  constructor
  · rintro ⟨r, rfl⟩
    exact ⟨.register r true, rfl, rfl⟩
  · rintro ⟨k, hk, rfl⟩
    cases k with
    | mnemonic m => cases hk
    | register r mark =>
      cases hk
      exact ⟨r, rfl⟩

/-- Names of one width, bare or marked, are how clues of this width are written. -/
theorem mem_wide_iff {names : List String} {w : OperandWidth}
    (h : ∀ t, t ∈ names ↔ ∃ r : Register, r.width = w ∧ r.name = t) (t : String) :
    t ∈ names ++ marked names ↔ ∃ k : Clue, decide (k.width? = some w) = true ∧ k.text = t := by
  rw [List.mem_append, h, mem_marked h]
  constructor
  · rintro (⟨r, hr, ht⟩ | ⟨r, hr, ht⟩)
    · exact ⟨.register r false, decide_eq_true (congrArg some hr), ht⟩
    · exact ⟨.register r true, decide_eq_true (congrArg some hr), ht⟩
  · rintro ⟨k, hk, ht⟩
    cases k with
    | mnemonic m => cases hk
    | register r mark =>
      have hr : r.width = w := Option.some.inj (of_decide_eq_true hk)
      cases mark with
      | false => exact .inl ⟨r, hr, ht⟩
      | true => exact .inr ⟨r, hr, ht⟩

end Vocabulary

namespace Source

/-! ## Findings by positions -/

theorem hasAny_wide_iff {p : Source} {names : List String} {w : OperandWidth}
    (h : ∀ t, t ∈ names ↔ ∃ r : Register, r.width = w ∧ r.name = t) :
    p.HasAny (names ++ Vocabulary.marked names) ↔
      w ∈ (Clue.ofTokens p.tokens).filterMap Clue.width? := by
  rw [hasAny_iff (Vocabulary.mem_wide_iff h), List.any_eq_true, List.mem_filterMap]
  simp only [decide_eq_true_eq]

theorem operandBits_eq (p : Source) :
    p.operandBits =
      (OperandWidth.word.widest ((Clue.ofTokens p.tokens).filterMap Clue.width?)).bits := by
  rw [operandBits, OperandWidth.widest_word_eq]
  simp only [hasAny_wide_iff Vocabulary.mem_qwordNames, hasAny_wide_iff Vocabulary.mem_dwordNames]
  split
  · rfl
  · split
    · rfl
    · rfl

/-- **The answer line by positions** is the one that is written for what the words add up to. -/
theorem answerLine_eq (p : Source) : p.answerLine = (Profile.ofTokens p.tokens).answer ++ "\n" := by
  have hvfp : p.HasAny ["vldr", "vstr"] ↔ (Clue.ofTokens p.tokens).any (Clue.isOf .vfp) = true :=
    hasAny_iff (Vocabulary.mem_spelled_iff .vfp)
  have harm : p.HasAny ["ldr", "str"] ↔ (Clue.ofTokens p.tokens).any (Clue.isOf .arm) = true :=
    hasAny_iff (Vocabulary.mem_spelled_iff .arm)
  have hx87 : p.HasAny ["finit", "fld", "fst"] ↔
      (Clue.ofTokens p.tokens).any (Clue.isOf .x87) = true :=
    hasAny_iff (Vocabulary.mem_spelled_iff .x87)
  rw [answerLine, operandBits_eq, Profile.ofTokens, Profile.ofClues_eq, Profile.any_tellsArm]
  simp only [hvfp, harm, hx87, hasAny_iff Vocabulary.mem_marked_iff]
  cases (Clue.ofTokens p.tokens).any (Clue.isOf .vfp) with
  | true =>
    rw [Bool.or_true]
    rfl
  | false =>
    rw [Bool.or_false]
    cases (Clue.ofTokens p.tokens).any (Clue.isOf .arm) with
    | true => rfl
    | false =>
      -- no more than twelve lines are left, and each is a closed text
      cases (Clue.ofTokens p.tokens).any Clue.isMarked <;>
        cases (Clue.ofTokens p.tokens).any (Clue.isOf .x87) <;>
        cases OperandWidth.word.widest ((Clue.ofTokens p.tokens).filterMap Clue.width?) <;> rfl

end Source

/-- **What a run writes**, asked for an answer: the answer line of the source that is delivered to
it, whatever the stream, the size of its blocks and the way the delivery ends. -/
theorem run_writes_answerLine {o : RunOptions} (hf : o.format = .known .answer)
    (ho : 0 < o.blockSize) {s : Stream} {d : Source} {e : Ending}
    (h : s.Delivers o.blockSize.toNat d e) :
    (run o s).written = d.prepared.answerLine ∧ (run o s).failure = none := by
  obtain ⟨r, -, -, hrun⟩ := run_of_delivers ho h
  rw [hrun, conclude, hf, Source.answerLine_eq]
  exact ⟨rfl, rfl⟩

/-- An answer in spite of a failing device, from a word that arrives in two blocks. -/
theorem run_writes_answerLine_of_two_blocks :
    let o : RunOptions := { blockSize := 4 }
    let s : Stream := .script [.block (Source.ofText "ad V"), .block (Source.ofText "LDR,"),
      .fault .device, .block (Source.ofText "fld")]
    o.format = .known .answer ∧ 0 < o.blockSize ∧
      s.Delivers o.blockSize.toNat (Source.ofText "ad V" ++ (Source.ofText "LDR," ++ [])) .broken ∧
      (run o s).written = "0 1\n" := by
  intro o s
  have h : s.Delivers o.blockSize.toNat (Source.ofText "ad V" ++ (Source.ofText "LDR," ++ []))
      .broken :=
    .block rfl (by decide) (.block rfl (by decide) (.broken rfl))
  refine ⟨rfl, by decide, h, ?_⟩
  rw [(run_writes_answerLine rfl (by decide) h).1]
  decide

end AsmDialect
