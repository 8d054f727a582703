import AsmDialect.Source.Basic
/-!
# Streams

A stream is asked for bytes, a block at a time. A stream may hold its bytes, in memory or in a file,
and hands out as many as are asked for. Or it follows a script: it gives the next answer of the
script whatever it is asked for, so it may give more or fewer bytes, none, or a fault.

There is a size of block beyond which a stream that holds its bytes refuses to be asked at all
(`refusal?`). For a file it is a matter of the machine, which may be short of memory, so the room
that there is comes with the file. Main statements: which sizes a file takes
(`refusal?_file_eq_none_iff`), and that a read that brings bytes leaves less of the stream
(`remaining_read_lt`).
-/

namespace AsmDialect

/-- The kinds of fault that are not the device's. -/
inductive FaultKind where
  | value
  | memory
  | endOfFile
  | runtime
  | overflow
deriving DecidableEq, Repr

/-- What can go wrong in a read. -/
inductive Fault where
  /-- The device or the connection failed, and there is nothing more to be had from it. -/
  | device
  /-- Anything else, which is not for the reader to deal with. -/
  | other (kind : FaultKind) (message : String)
deriving DecidableEq, Repr

/-- What a read brings. -/
inductive Answer where
  | block (bytes : Source)
  /-- No block at all. -/
  | nothing
  | fault (f : Fault)
deriving DecidableEq, Repr

/-- Where a stream holds its bytes. -/
inductive Holder where
  | memory
  /-- A file on a machine that has room in memory for a block of so many bytes, with all that a
  block takes up. -/
  | file (room : Nat)
deriving DecidableEq, Repr

/-- Something to read a source from. -/
inductive Stream where
  /-- A stream that holds its bytes. -/
  | holding (h : Holder) (bytes : Source)
  /-- A stream that gives the answers of a script, and no more bytes after the last one. -/
  | script (answers : List Answer)
deriving DecidableEq, Repr

/-! ## Requests that are too large -/

/-- The largest number of bytes that can be counted in a machine word with a sign. -/
def indexLimit : Nat := Nat.pow 2 63 - 1

/-- The bytes that a block takes up in memory besides its contents. -/
def blockOverhead : Nat := 33

/-- The answer to a request whose size does not fit a machine word. -/
def Fault.uncountable : Fault := .other .overflow "cannot fit 'int' into an index-sized integer"

/-- The answer to a request for a block that cannot be addressed as a whole. -/
def Fault.unaddressable : Fault := .other .overflow "byte string is too large"

/-- The answer to a request for a block that memory has no room for. -/
def Fault.noRoom : Fault := .other .memory ""

/-- The fault with which requests of a size are met. Bytes in memory only have to be counted; for
those in a file a block of the size asked for is set aside first, even if there are fewer of them.
-/
def Holder.refusal? (n : Nat) : Holder → Option Fault
  | memory => if indexLimit < n then some .uncountable else none
  | file room =>
    if indexLimit < n then some .uncountable
    else if indexLimit < n + blockOverhead then some .unaddressable
    else if room < n + blockOverhead then some .noRoom
    else none

/-- No holder takes what a machine word does not. -/
theorem Holder.refusal?_of_indexLimit_lt {n : Nat} (hn : indexLimit < n) (h : Holder) :
    h.refusal? n = some .uncountable := by
  cases h <;> simp only [refusal?, if_pos hn]

/-- **The sizes that a file takes**: those of blocks that can be addressed and have room. -/
theorem Holder.refusal?_file_eq_none_iff {room n : Nat} :
    (file room).refusal? n = none ↔ n + blockOverhead ≤ indexLimit ∧ n + blockOverhead ≤ room := by
  simp only [refusal?]
  split
  · exact ⟨nofun, fun _ => by omega⟩
  · split
    · exact ⟨nofun, fun _ => by omega⟩
    · split
      · exact ⟨nofun, fun _ => by omega⟩
      · exact ⟨fun _ => by omega, fun _ => rfl⟩

namespace Stream

/-- The fault with which a stream meets every request of a size, whatever there is left of it. A
script does not look at the size. -/
def refusal? (n : Nat) : Stream → Option Fault
  | holding h _ => h.refusal? n
  | script _ => none

/-- What a stream gives that takes the request, and the stream after it. -/
def serve (n : Nat) : Stream → Answer × Stream
  | holding h bytes => (.block (bytes.take n), .holding h (bytes.drop n))
  | script [] => (.block [], .script [])
  | script (a :: answers) => (a, .script answers)

/-- Asks for a number of bytes. Gives what the read brings, and the stream after it. -/
def read (n : Nat) (s : Stream) : Answer × Stream :=
  match s.refusal? n with
  | some f => (.fault f, s)
  | none => s.serve n

/-- How many reads a stream can answer with bytes, at most. -/
def remaining : Stream → Nat
  | holding _ bytes => bytes.length
  | script answers => answers.length

theorem remaining_serve_lt {n : Nat} {s rest : Stream} {b : UInt8} {bytes : Source} (hn : 0 < n)
    (h : s.serve n = (.block (b :: bytes), rest)) : rest.remaining < s.remaining := by
  cases s with
  | holding holder all =>
    simp only [serve, Prod.mk.injEq, Answer.block.injEq] at h
    obtain ⟨ht, rfl⟩ := h
    have hne : all ≠ [] := by rintro rfl; simp at ht
    have := List.length_pos_iff.2 hne
    simp only [remaining, List.length_drop]
    omega
  | script answers =>
    cases answers with
    | nil => simp [serve] at h
    | cons a answers =>
      simp only [serve, Prod.mk.injEq] at h
      simp [← h.2, remaining]

theorem remaining_read_lt {n : Nat} {s rest : Stream} {b : UInt8} {bytes : Source} (hn : 0 < n)
    (h : s.read n = (.block (b :: bytes), rest)) : rest.remaining < s.remaining := by
  unfold read at h
  split at h
  · simp at h
  · exact remaining_serve_lt hn h

end Stream

end AsmDialect
