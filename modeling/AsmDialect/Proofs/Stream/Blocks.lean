import Mathlib.Algebra.Order.Floor.Div
import AsmDialect.Source.Text
import AsmDialect.Stream.Delivery
/-!
# Reading in blocks of any size

A source that is handed out block by block takes as many requests as there are blocks, and one more
to learn that there are none. This is so for every size that asks for something, be it one byte or
more than any machine can count; streams that hold their bytes hand them out to the sizes they do
not refuse, and for every size there is a stream that does. Main statements: which reads bring bytes
(`isDelivery_read_iff`), and what comes of all of them (`readAll_of_handsOut`).
-/

namespace AsmDialect.Stream

/-! ## Counting blocks -/

theorem blockCount_eq_ceilDiv (n count : Nat) : blockCount n count = count ⌈/⌉ n := by
  rw [Nat.ceilDiv_eq_add_pred_div, blockCount]
  cases n with
  | zero => simp
  | succ n => rfl

theorem lt_ceilDiv_iff {n : Nat} (hn : 0 < n) (k count : Nat) :
    k < count ⌈/⌉ n ↔ k * n < count := by
  rw [← not_le, ceilDiv_le_iff_le_mul hn, not_le, Nat.mul_comm]

/-- **Read by read**: just the reads before the end of the source bring bytes, the last one of them
what is left. -/
theorem isDelivery_read_iff {n : Nat} (hn : 0 < n) {s : Stream} {d : Source}
    (h : s.HandsOut n d) (k : Nat) :
    ((s.after n k).read n).1.isDelivery = true ↔ k < d.length ⌈/⌉ n := by
  have hnone : (d.drop (k * n)).take n = [] ↔ d.length ≤ k * n := by
    rw [List.take_eq_nil_iff, List.drop_eq_nil_iff]
    omega
  rw [h k, lt_ceilDiv_iff hn, ← not_le, ← hnone]
  simp [Answer.isDelivery, Answer.bytes]

/-! ## A stream for every size -/

/-- The script that hands out a source in blocks of a size. -/
def inBlocks (n : Nat) (d : Source) : Stream :=
  .script ((List.range (d.length ⌈/⌉ n)).map fun k => .block ((d.drop (k * n)).take n))

theorem read_script (n : Nat) (answers : List Answer) :
    ((script answers).read n).1 = answers.head?.getD (.block []) := by
  cases answers <;> rfl

theorem handsOut_inBlocks {n : Nat} (hn : 0 < n) (d : Source) : (inBlocks n d).HandsOut n d := by
  intro k
  rw [inBlocks, after_script, read_script, List.head?_drop, List.getElem?_map]
  by_cases hk : k < d.length ⌈/⌉ n
  · rw [List.getElem?_range hk]
    rfl
  · have hle : d.length ≤ k * n := by
      rw [← not_lt, ← lt_ceilDiv_iff hn]
      exact hk
    rw [List.drop_eq_nil_of_le hle, List.getElem?_eq_none (by simpa using hk)]
    simp

/-! ## All reads -/

/-- **A source in blocks.** Where each read brings what comes next of a source, the reading comes to
an end with the source as a whole. It makes a request for each block, the last one full or not, and
one more; so there is one request for an empty source, and none is saved if the last block is full.
There is such a stream for every size; a stream that holds its bytes is one if it does not refuse
the size, and if it does, its first answer is its last. -/
theorem readAll_of_handsOut :
    (∀ (s : Stream) (d : Source) (n : Int), 1 ≤ n → s.HandsOut n.toNat d →
      (∃ r, s.readAll n = .ok r ∧ r.bytes = d ∧ r.ending = .complete ∧
        r.requests = List.replicate (d.length ⌈/⌉ n.toNat + 1) n.toNat ∧
        r.rest = s.after n.toNat (d.length ⌈/⌉ n.toNat + 1) ∧
        (d = [] → r.requests = [n.toNat]) ∧
        (n.toNat ∣ d.length → r.requests.length = d.length / n.toNat + 1)) ∧
      ∀ k, ((s.after n.toNat k).read n.toNat).1.isDelivery = true ↔
        k < d.length ⌈/⌉ n.toNat) ∧
      (∀ (d : Source) (n : Int), 1 ≤ n → ∃ s : Stream, s.HandsOut n.toNat d) ∧
      (∀ (h : Holder) (d : Source) (n : Int), h.refusal? n.toNat = none →
        (holding h d).HandsOut n.toNat d) ∧
      ∀ (h : Holder) (d : Source) (n : Int) (f : Fault), 1 ≤ n → h.refusal? n.toNat = some f →
        (holding h d).readAll n = .ok ⟨[], [n.toNat], f.ending, .holding h d⟩ := by
  refine ⟨?_, ?_, ?_, ?_⟩
  · intro s d n hn h
    have hpos : 0 < n.toNat := by omega
    refine ⟨⟨s.drain n.toNat hpos, dif_pos (by omega), ?_⟩, isDelivery_read_iff hpos h⟩
    rw [drain_of_handsOut hpos h, blockCount_eq_ceilDiv]
    refine ⟨rfl, rfl, rfl, rfl, ?_, ?_⟩
    · rintro rfl
      simp
    · intro hdvd
      obtain ⟨c, hc⟩ := hdvd
      simp only [List.length_replicate, hc]
      rw [Nat.mul_div_cancel_left c hpos, ← smul_eq_mul, smul_ceilDiv hpos]
  · intro d n hn
    exact ⟨inBlocks n.toNat d, handsOut_inBlocks (by omega) d⟩
  · intro h d n hr
    exact handsOut_holding hr d
  · intro h d n f hn hr
    have hrefusal : (holding h d).refusal? n.toNat = some f := hr
    rw [readAll, dif_pos (by omega), drain_of_refusal _ hrefusal]

/-- Blocks that come out even, and a size that a script takes and bytes in memory refuse. -/
theorem readAll_of_handsOut_even_and_huge :
    let d := Source.ofText "ldr r0"
    let s : Stream := .holding .memory d
    let t : Stream := .script [.block d]
    let huge : Int := 2 ^ 64
    s.HandsOut 3 d ∧ (∃ r, s.readAll 3 = .ok r ∧ r.bytes = d ∧ r.requests = [3, 3, 3]) ∧
      t.HandsOut huge.toNat d ∧
      (∃ r, t.readAll huge = .ok r ∧ r.bytes = d ∧ r.requests = [huge.toNat, huge.toNat]) ∧
      s.readAll huge = .ok ⟨[], [huge.toNat], Fault.uncountable.ending, s⟩ := by
  intro d s t huge
  obtain ⟨hall, -, hheld, hrefused⟩ := readAll_of_handsOut
  have hs : s.HandsOut 3 d := hheld .memory d 3 (by decide)
  have hblocks : inBlocks huge.toNat d = t := by decide
  have ht : t.HandsOut huge.toNat d := hblocks ▸ handsOut_inBlocks (by decide) d
  obtain ⟨⟨r, hr, hbytes, -, hrequests, -, -, -⟩, -⟩ := hall s d 3 (by decide) hs
  obtain ⟨⟨r', hr', hbytes', -, hrequests', -, -, -⟩, -⟩ := hall t d huge (by decide) ht
  refine ⟨hs, ⟨r, hr, hbytes, hrequests.trans (by decide)⟩, ht,
    ⟨r', hr', hbytes', hrequests'.trans (by decide)⟩, ?_⟩
  exact hrefused .memory d huge .uncountable (by decide) (by decide)

end AsmDialect.Stream
