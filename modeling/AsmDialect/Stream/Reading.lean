import AsmDialect.Log
import AsmDialect.Stream.Basic
/-!
# Reading a stream to its end

A stream is read in blocks of one size until a read brings no bytes. A device that fails ends the
reading too, and what came before counts; any other fault is passed on. The reading keeps every
request it made and what it left of the stream, so nothing is asked of a stream behind its back.
-/

namespace AsmDialect

/-- How a reading came to its end. -/
inductive Ending where
  /-- A read brought no bytes. -/
  | complete
  /-- The device failed. -/
  | broken
  /-- A fault that is passed on. -/
  | raised (kind : FaultKind) (message : String)
deriving DecidableEq, Repr

/-- How a fault ends a reading. -/
def Fault.ending : Fault → Ending
  | .device => .broken
  | .other kind message => .raised kind message

/-- All there is to say of a stream's being read to its end. -/
structure Reading where
  /-- The bytes that were delivered. -/
  bytes : Source
  /-- The sizes that were asked for, read by read. -/
  requests : List Nat
  ending : Ending
  /-- What is left of the stream. -/
  rest : Stream
deriving DecidableEq, Repr

/-- Reads a stream to its end in blocks of the given size. -/
def Stream.drain (n : Nat) (hn : 0 < n) (s : Stream) : Reading :=
  match _h : s.read n with
  | (.fault f, rest) => ⟨[], [n], f.ending, rest⟩
  | (.nothing, rest) => ⟨[], [n], .complete, rest⟩
  | (.block [], rest) => ⟨[], [n], .complete, rest⟩
  | (.block (b :: bytes), rest) =>
    let later := drain n hn rest
    { later with bytes := b :: (bytes ++ later.bytes), requests := n :: later.requests }
termination_by s.remaining
decreasing_by exact remaining_read_lt hn ‹_›

/-- A block size that nothing can be read with. -/
structure BadBlockSize where
  size : Int
deriving DecidableEq, Repr

/-- What is reported of a block size that nothing can be read with. -/
def BadBlockSize.message (e : BadBlockSize) : String :=
  s!"block_size must be positive, got {e.size}"

/-- The block size that is used if none is asked for. -/
def defaultBlockSize : Nat := 4096

/-- Reads a stream to its end, unless the block size is not positive. -/
def Stream.readAll (s : Stream) (blockSize : Int) : Except BadBlockSize Reading :=
  if h : 0 < blockSize then .ok (s.drain blockSize.toNat (by omega)) else .error ⟨blockSize⟩

/-- The log of a reading. Nothing is noted of one that ends in a fault that is passed on. -/
def Reading.log (r : Reading) : Log :=
  match r.ending with
  | .complete => [.bytesRead r.bytes.length]
  | .broken => [.readFailed r.bytes.length, .bytesRead r.bytes.length]
  | .raised .. => []

end AsmDialect
