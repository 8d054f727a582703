import AsmDialect.Stream.Reading
/-!
# What a stream delivers

What a stream has to give can be told without reading it: the bytes it holds, or the blocks that its
script opens with, up to the first answer that brings no bytes. Main statements: a reading whose
requests are taken gets just what is delivered and ends as the delivery does, whatever the block
size (`drain_bytes`, `drain_ending`); it makes one request more than there are blocks, and leaves
alone what comes after the end (`drain_script`, `drain_of_handsOut`, `drain_holding`). If requests
are refused, the first one is the last (`drain_of_refusal`).
-/

namespace AsmDialect

/-- The bytes that an answer brings. -/
def Answer.bytes : Answer → Source
  | block bytes => bytes
  | nothing => []
  | fault _ => []

/-- Whether an answer brings bytes. -/
def Answer.isDelivery (a : Answer) : Bool := !a.bytes.isEmpty

/-- How a delivery ends with an answer that brings no bytes, or with none at all. -/
def Answer.endingOf : Option Answer → Ending
  | some (fault f) => f.ending
  | _ => .complete

namespace Stream

/-- The bytes a stream delivers to whom it does not refuse. -/
def delivered : Stream → Source
  | holding _ bytes => bytes
  | script answers => (answers.takeWhile Answer.isDelivery).flatMap Answer.bytes

/-- How the delivery ends. -/
def ending : Stream → Ending
  | holding .. => .complete
  | script answers => Answer.endingOf (answers.dropWhile Answer.isDelivery).head?

/-- The stream after a number of reads of one size. -/
def after (n : Nat) (s : Stream) : Nat → Stream
  | 0 => s
  | k + 1 => after n (s.read n).2 k

/-- How many blocks of the given size there are in a number of bytes, the last one full or not. -/
def blockCount (n count : Nat) : Nat := (count + (n - 1)) / n

/-! ## Step by step -/

theorem drain_of_end {n : Nat} (hn : 0 < n) {s rest : Stream} {a : Answer}
    (h : s.read n = (a, rest)) (ha : a.bytes = []) :
    s.drain n hn = ⟨[], [n], Answer.endingOf a, rest⟩ := by
  rw [drain]
  split <;> rename_i hr <;> rw [h] at hr <;> cases hr
  · rfl
  · rfl
  · rfl
  · cases ha

theorem drain_of_block {n : Nat} (hn : 0 < n) {s rest : Stream} {bytes : Source}
    (h : s.read n = (.block bytes, rest)) (hb : bytes ≠ []) :
    s.drain n hn =
      { rest.drain n hn with
        bytes := bytes ++ (rest.drain n hn).bytes
        requests := n :: (rest.drain n hn).requests } := by
  rw [drain]
  split <;> rename_i hr <;> rw [h] at hr <;> cases hr
  · exact absurd rfl hb
  · rfl

/-- **Induction along the reads** of one size: what holds of each stream of which a read brings no
bytes, and of each stream that a read brings bytes of if it holds of the rest, holds of all
streams. -/
@[elab_as_elim]
theorem reads_induction {n : Nat} (hn : 0 < n) {motive : Stream → Prop}
    (ended : ∀ (s rest : Stream) (a : Answer), s.read n = (a, rest) → a.bytes = [] → motive s)
    (block : ∀ (s rest : Stream) (bytes : Source), s.read n = (.block bytes, rest) → bytes ≠ [] →
      motive rest → motive s)
    (s : Stream) : motive s := by
  -- by what is left of the stream, as in the reading itself
  induction hk : s.remaining using Nat.strongRecOn generalizing s with
  | _ k ih =>
    subst hk
    rcases hr : s.read n with ⟨a, rest⟩
    by_cases ha : a.bytes = []
    · exact ended s rest a hr ha
    · cases a with
      | nothing => exact absurd rfl ha
      | fault f => exact absurd rfl ha
      | block bytes =>
        obtain ⟨b, bytes, rfl⟩ := List.exists_cons_of_ne_nil ha
        exact block s rest _ hr ha (ih _ (remaining_read_lt hn hr) rest rfl)

theorem read_of_refusal {n : Nat} {s : Stream} {f : Fault} (h : s.refusal? n = some f) :
    s.read n = (.fault f, s) := by
  rw [read, h]

theorem read_of_no_refusal {n : Nat} {s : Stream} (h : s.refusal? n = none) :
    s.read n = s.serve n := by
  rw [read, h]

theorem drain_of_refusal {n : Nat} (hn : 0 < n) {s : Stream} {f : Fault}
    (h : s.refusal? n = some f) : s.drain n hn = ⟨[], [n], f.ending, s⟩ :=
  drain_of_end hn (read_of_refusal h) rfl

/-! ## Scripts -/

theorem drain_script (n : Nat) (hn : 0 < n) (answers : List Answer) :
    (script answers).drain n hn =
      ⟨(script answers).delivered,
        List.replicate ((answers.takeWhile Answer.isDelivery).length + 1) n,
        (script answers).ending,
        .script (answers.dropWhile Answer.isDelivery).tail⟩ := by
  induction answers with
  | nil => simp [drain_of_end hn (s := script []) (a := .block []) rfl rfl, delivered, ending,
      Answer.endingOf]
  | cons a answers ih =>
    by_cases ha : a.bytes = []
    · rw [drain_of_end hn (s := script (a :: answers)) (a := a) rfl ha]
      simp [delivered, ending, Answer.isDelivery, ha]
    · cases a with
      | block bytes =>
        have hd : (Answer.block bytes).isDelivery = true := by simpa [Answer.isDelivery] using ha
        rw [drain_of_block hn (s := script (.block bytes :: answers)) rfl ha, ih]
        simp [delivered, ending, hd, Answer.bytes, List.replicate_succ]
      | nothing => simp [Answer.bytes] at ha
      | fault f => simp [Answer.bytes] at ha

theorem after_script (n : Nat) (answers : List Answer) (k : Nat) :
    (script answers).after n k = .script (answers.drop k) := by
  induction k generalizing answers with
  | zero => rfl
  | succ k ih =>
    cases answers with
    | nil =>
      have hrest := ih []
      rw [List.drop_nil] at hrest ⊢
      exact hrest
    | cons a answers => exact ih answers

/-! ## Bytes held -/

theorem blockCount_add_self {n count : Nat} (hn : 0 < n) :
    blockCount n (n + count) = blockCount n count + 1 := by
  rw [blockCount, Nat.add_assoc, Nat.add_div_left _ hn, blockCount]

theorem blockCount_le {n count : Nat} (hc : 0 < count) (hle : count ≤ n) :
    blockCount n count = 1 := by
  rw [blockCount, show count + (n - 1) = n + (count - 1) by omega,
    Nat.add_div_left _ (by omega), Nat.div_eq_of_lt (by omega)]

theorem blockCount_drop {n : Nat} (hn : 0 < n) {bytes : Source} (hne : bytes ≠ []) :
    blockCount n bytes.length = blockCount n (bytes.drop n).length + 1 := by
  have hpos := List.length_pos_iff.2 hne
  rw [List.length_drop]
  by_cases hle : bytes.length ≤ n
  · rw [blockCount_le hpos hle, Nat.sub_eq_zero_of_le hle, blockCount,
      Nat.div_eq_of_lt (by omega)]
  · rw [← blockCount_add_self hn]
    congr 1
    omega

theorem le_blockCount_mul {n : Nat} (hn : 0 < n) (count : Nat) :
    count ≤ blockCount n count * n := by
  have hdiv := Nat.div_add_mod (count + (n - 1)) n
  have hmod := Nat.mod_lt (count + (n - 1)) hn
  rw [blockCount, Nat.mul_comm]
  omega

/-- Whether each read of a size brings the bytes of a source that come next: as many as are asked
for, or as many as are left. -/
def HandsOut (n : Nat) (s : Stream) (d : Source) : Prop :=
  ∀ k, ((s.after n k).read n).1 = .block ((d.drop (k * n)).take n)

theorem HandsOut.read_eq {n : Nat} {s : Stream} {d : Source} (h : s.HandsOut n d) :
    s.read n = (.block (d.take n), (s.read n).2) := by
  have hnow := h 0
  rw [Nat.zero_mul, List.drop_zero] at hnow
  exact Prod.ext hnow rfl

/-- What is left after a read is handed out by the stream after it. -/
theorem HandsOut.after_read {n : Nat} {s : Stream} {d : Source} (h : s.HandsOut n d) :
    (s.read n).2.HandsOut n (d.drop n) := by
  intro k
  rw [List.drop_drop, Nat.add_comm, ← Nat.add_one_mul]
  exact h (k + 1)

/-- **A source handed out block by block** is read in full, with a last request that brings nothing.
Each request but the last one leaves less of the source, because it asks for something. -/
theorem drain_of_handsOut {n : Nat} (hn : 0 < n) {s : Stream} {d : Source} (h : s.HandsOut n d) :
    s.drain n hn =
      ⟨d, List.replicate (blockCount n d.length + 1) n, .complete,
        s.after n (blockCount n d.length + 1)⟩ := by
  induction hk : d.length using Nat.strongRecOn generalizing s d with
  | _ k ih =>
    subst hk
    have hread := h.read_eq
    by_cases hne : d = []
    · subst hne
      rw [drain_of_end hn hread (by simp [Answer.bytes])]
      simp [Answer.endingOf, blockCount, Nat.div_eq_of_lt (show n - 1 < n by omega), after]
    · have hpos := List.length_pos_iff.2 hne
      have htake : d.take n ≠ [] := by
        rw [ne_eq, List.take_eq_nil_iff, not_or]
        exact ⟨by omega, hne⟩
      have hlt : (d.drop n).length < d.length := by
        rw [List.length_drop]
        omega
      rw [drain_of_block hn hread htake, ih _ hlt h.after_read rfl, blockCount_drop hn hne]
      simp [List.replicate_succ, after]

theorem read_holding {n : Nat} {h : Holder} (hr : h.refusal? n = none) (bytes : Source) :
    (holding h bytes).read n = (.block (bytes.take n), .holding h (bytes.drop n)) :=
  read_of_no_refusal hr

theorem after_holding {n : Nat} {h : Holder} (hr : h.refusal? n = none) (bytes : Source)
    (k : Nat) : (holding h bytes).after n k = .holding h (bytes.drop (k * n)) := by
  induction k generalizing bytes with
  | zero => simp [after]
  | succ k ih =>
    rw [after, read_holding hr, ih, List.drop_drop, Nat.add_one_mul, Nat.add_comm]

theorem handsOut_holding {n : Nat} {h : Holder} (hr : h.refusal? n = none) (bytes : Source) :
    (holding h bytes).HandsOut n bytes := by
  intro k
  rw [after_holding hr, read_holding hr]

theorem drain_holding {n : Nat} (hn : 0 < n) {h : Holder} (hr : h.refusal? n = none)
    (bytes : Source) :
    (holding h bytes).drain n hn =
      ⟨bytes, List.replicate (blockCount n bytes.length + 1) n, .complete, .holding h []⟩ := by
  have hall : bytes.length ≤ (blockCount n bytes.length + 1) * n := by
    have hle := le_blockCount_mul hn bytes.length
    rw [Nat.add_one_mul]
    omega
  rw [drain_of_handsOut hn (handsOut_holding hr bytes), after_holding hr,
    List.drop_eq_nil_of_le hall]

/-! ## Readings -/

/-- **A reading gets what is delivered.** -/
theorem drain_bytes {n : Nat} (hn : 0 < n) {s : Stream} (h : s.refusal? n = none) :
    (s.drain n hn).bytes = s.delivered := by
  cases s with
  | holding holder bytes => rw [drain_holding hn h, delivered]
  | script answers => rw [drain_script]

/-- **A reading ends as the delivery does.** -/
theorem drain_ending {n : Nat} (hn : 0 < n) {s : Stream} (h : s.refusal? n = none) :
    (s.drain n hn).ending = s.ending := by
  cases s with
  | holding holder bytes => rw [drain_holding hn h, ending]
  | script answers => rw [drain_script]

end Stream

end AsmDialect
