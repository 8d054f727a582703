import AsmDialect.Run
import AsmDialect.Stream.Delivery
/-!
# Streams, read by read

What a stream delivers to whoever asks it for blocks of one size, told request by request and not by
what the stream holds: each answer but the last is a block with bytes in it, and the last one brings
none. A stream that raises a fault in one of the reads delivers nothing, and refusing the size is
such a fault. Main statements: which streams deliver what (`delivers_iff`), that there is no third
thing for a stream to do (`delivers_or_raises`), and that a run comes to what is delivered to it
(`run_of_delivers`) or fails with what is raised (`run_of_raises`).
-/

namespace AsmDialect

namespace Stream

/-- Whether a stream delivers the given bytes to requests of the given size, and how that ends. -/
inductive Delivers (n : Nat) : Stream → Source → Ending → Prop
  /-- The last answer is an empty block. -/
  | ended {s rest : Stream} (h : s.read n = (.block [], rest)) : Delivers n s [] .complete
  /-- The last answer is no block at all. -/
  | stopped {s rest : Stream} (h : s.read n = (.nothing, rest)) : Delivers n s [] .complete
  /-- The device fails. -/
  | broken {s rest : Stream} (h : s.read n = (.fault .device, rest)) : Delivers n s [] .broken
  | block {s rest : Stream} {bytes d : Source} {e : Ending}
      (h : s.read n = (.block bytes, rest)) (hb : bytes ≠ []) (hd : Delivers n rest d e) :
      Delivers n s (bytes ++ d) e

/-- Whether a reading that ends so has got all there is to get. -/
def IsDelivered : Ending → Prop
  | .raised .. => False
  | _ => True

/-- **A reading gets what is delivered** to requests of its size, and ends as the delivery does. -/
theorem drain_of_delivers {n : Nat} (hn : 0 < n) {s : Stream} {d : Source} {e : Ending}
    (h : s.Delivers n d e) :
    (s.drain n hn).bytes = d ∧ (s.drain n hn).ending = e ∧ IsDelivered e := by
  induction h with
  | ended h =>
    rw [drain_of_end hn h rfl]
    exact ⟨rfl, rfl, trivial⟩
  | stopped h =>
    rw [drain_of_end hn h rfl]
    exact ⟨rfl, rfl, trivial⟩
  | broken h =>
    rw [drain_of_end hn h rfl]
    exact ⟨rfl, rfl, trivial⟩
  | block h hb _ ih =>
    rw [drain_of_block hn h hb, ih.1]
    exact ⟨rfl, ih.2⟩

theorem delivers_of_drain {n : Nat} (hn : 0 < n) (s : Stream)
    (h : IsDelivered (s.drain n hn).ending) :
    s.Delivers n (s.drain n hn).bytes (s.drain n hn).ending := by
  induction s using reads_induction hn with
  | ended s rest a hr ha =>
    rw [drain_of_end hn hr ha] at h ⊢
    cases a with
    | nothing => exact .stopped hr
    | fault f =>
      cases f with
      | device => exact .broken hr
      | other kind message => exact absurd h id
    | block bytes =>
      obtain rfl : bytes = [] := ha
      exact .ended hr
  | block s rest bytes hr hb ih =>
    rw [drain_of_block hn hr hb] at h ⊢
    exact .block hr hb (ih h)

theorem not_isDelivered_of_refusal {n : Nat} {s : Stream} {f : Fault}
    (h : s.refusal? n = some f) : ¬ IsDelivered f.ending := by
  cases s with
  | script answers => simp [refusal?] at h
  | holding holder bytes =>
    cases holder <;> simp only [refusal?, Holder.refusal?] at h <;> split at h
    · cases h
      exact id
    · cases h
    · cases h
      exact id
    · split at h
      · cases h
        exact id
      · split at h <;> cases h
        exact id

/-- **What is delivered to requests of a size**: all there is to deliver, if the size is not refused
and no fault is passed on. -/
theorem delivers_iff {n : Nat} (hn : 0 < n) {s : Stream} {d : Source} {e : Ending} :
    s.Delivers n d e ↔
      s.refusal? n = none ∧ s.delivered = d ∧ s.ending = e ∧ IsDelivered e := by
  constructor
  · intro h
    obtain ⟨rfl, rfl, he⟩ := drain_of_delivers hn h
    cases hr : s.refusal? n with
    | some f =>
      rw [drain_of_refusal hn hr] at he
      exact absurd he (not_isDelivered_of_refusal hr)
    | none => exact ⟨rfl, (drain_bytes hn hr).symm, (drain_ending hn hr).symm, he⟩
  · rintro ⟨hr, rfl, rfl, he⟩
    rw [← drain_bytes hn hr, ← drain_ending hn hr]
    rw [← drain_ending hn hr] at he
    exact delivers_of_drain hn s he

/-- What is delivered to requests of one size is delivered to requests of any size that is not
refused. -/
theorem delivers_of_delivers {m n : Nat} (hm : 0 < m) (hn : 0 < n) {s : Stream} {d : Source}
    {e : Ending} (hr : s.refusal? n = none) (h : s.Delivers m d e) : s.Delivers n d e := by
  obtain ⟨-, hd⟩ := (delivers_iff hm).1 h
  exact (delivers_iff hn).2 ⟨hr, hd⟩

/-! ## Faults that are passed on -/

/-- Whether a stream raises the given fault in one of the requests of the given size. -/
inductive Raises (n : Nat) : Stream → FaultKind → String → Prop
  | here {s rest : Stream} {kind : FaultKind} {message : String}
      (h : s.read n = (.fault (.other kind message), rest)) : Raises n s kind message
  | later {s rest : Stream} {bytes : Source} {kind : FaultKind} {message : String}
      (h : s.read n = (.block bytes, rest)) (hb : bytes ≠ []) (hr : Raises n rest kind message) :
      Raises n s kind message

theorem ending_of_raises {n : Nat} (hn : 0 < n) {s : Stream} {kind : FaultKind} {message : String}
    (h : s.Raises n kind message) : (s.drain n hn).ending = .raised kind message := by
  induction h with
  | here h =>
    rw [drain_of_end hn h rfl]
    rfl
  | later h hb _ ih =>
    rw [drain_of_block hn h hb]
    exact ih

/-- A stream has one fault to raise. -/
theorem raises_unique {n : Nat} (hn : 0 < n) {s : Stream} {kind kind' : FaultKind}
    {message message' : String} (h : s.Raises n kind message) (h' : s.Raises n kind' message') :
    kind = kind' ∧ message = message' :=
  Ending.raised.inj ((ending_of_raises hn h).symm.trans (ending_of_raises hn h'))

theorem raises_of_ending {n : Nat} (hn : 0 < n) {s : Stream} {kind : FaultKind} {message : String}
    (h : (s.drain n hn).ending = .raised kind message) : s.Raises n kind message := by
  induction s using reads_induction hn with
  | ended s rest a hr ha =>
    rw [drain_of_end hn hr ha] at h
    cases a with
    | nothing => cases h
    | block bytes => cases h
    | fault f =>
      cases f with
      | device => cases h
      | other kind' message' =>
        cases h
        exact .here hr
  | block s rest bytes hr hb ih =>
    rw [drain_of_block hn hr hb] at h
    exact .later hr hb (ih h)

/-- A stream that raises a fault delivers nothing. -/
theorem not_delivers_of_raises {n : Nat} (hn : 0 < n) {s : Stream} {kind : FaultKind}
    {message : String} (h : s.Raises n kind message) (d : Source) (e : Ending) :
    ¬ s.Delivers n d e := by
  intro hd
  obtain ⟨-, he, hdelivered⟩ := drain_of_delivers hn hd
  rw [ending_of_raises hn h] at he
  rw [← he] at hdelivered
  exact hdelivered

/-- **A stream delivers or raises.** -/
theorem delivers_or_raises {n : Nat} (hn : 0 < n) (s : Stream) :
    (∃ d e, s.Delivers n d e) ∨ ∃ kind message, s.Raises n kind message := by
  cases he : (s.drain n hn).ending with
  | raised kind message => exact .inr ⟨kind, message, raises_of_ending hn he⟩
  | _ => exact .inl ⟨_, _, delivers_of_drain hn s (by rw [he]; trivial)⟩

end Stream

/-- **A run on what is delivered**: the size of the blocks and the way the bytes come in do not show
but in the log of the reading. -/
theorem run_of_delivers {o : RunOptions} (ho : 0 < o.blockSize) {s : Stream} {d : Source}
    {e : Ending} (h : s.Delivers o.blockSize.toNat d e) :
    ∃ r : Reading, r.bytes = d ∧ r.ending = e ∧ run o s = conclude o r.log d := by
  have hn : 0 < o.blockSize.toNat := by omega
  obtain ⟨rfl, rfl, he⟩ := Stream.drain_of_delivers hn h
  refine ⟨s.drain o.blockSize.toNat hn, rfl, rfl, ?_⟩
  rw [run, Stream.readAll, dif_pos ho]
  simp only
  split
  next kind message hraised =>
    rw [hraised] at he
    exact absurd he id
  next => rfl
  next => rfl

/-- **A run on a stream that raises a fault** fails with it and leaves nothing behind. -/
theorem run_of_raises {o : RunOptions} (ho : 0 < o.blockSize) {s : Stream} {kind : FaultKind}
    {message : String} (h : s.Raises o.blockSize.toNat kind message) :
    run o s = .failed [] (.stream kind message) := by
  have hn : 0 < o.blockSize.toNat := by omega
  have he := Stream.ending_of_raises hn h
  rw [run, Stream.readAll, dif_pos ho]
  simp only
  rw [he]
  simp only [Reading.log, he]
  rfl

end AsmDialect
