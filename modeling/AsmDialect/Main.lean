import AsmDialect.CommandLine.Command
/-!
# The command at a terminal

Opens the input that the arguments ask for, reads it to its end and prints what the command comes
to. Failures and warnings go to standard error.
-/

namespace AsmDialect.CommandLine

/-- The verbosity at a terminal: of the log, warnings alone are shown. -/
def terminalVerbosity : Int := -1

/-- The bytes that are asked of the system in a read, whatever the block size. It is for the stream
made of them to take or refuse the block size. -/
def readSize : USize := 65536

/-- The stream of what a handle gives up to the first read that brings no bytes or fails, after the
blocks so far, latest first. -/
partial def streamOf (read : IO ByteArray) (soFar : List Source) : IO Stream := do
  match ← read.toBaseIO with
  | .error _ => return .script (soFar.reverse.map .block ++ [.fault .device])
  | .ok block =>
    if block.isEmpty then return .holding (.file defaultRoom) soFar.reverse.flatten
    else streamOf read (block.toList :: soFar)

/-- Why a file could not be opened. -/
def causeOf (e : IO.Error) : OpenCause :=
  match e with
  | .inappropriateType _ 21 _ => .isDirectory
  | .inappropriateType .. => .notDirectory
  | .invalidArgument _ 36 _ => .nameTooLong
  | .invalidArgument .. => .embeddedNul
  | _ => .notFound

/-- The file at a path as a stream. A directory can be opened, but not read from. -/
def openFile (path : String) : IO (Except OpenError Stream) := do
  match ← (IO.FS.Handle.mk path .read).toBaseIO with
  | .error e => return .error ⟨path, causeOf e⟩
  | .ok h =>
    match ← (h.read readSize).toBaseIO with
    | .error (.inappropriateType _ 21 _) => return .error ⟨path, .isDirectory⟩
    | .error _ => return .ok (.script [.fault .device])
    | .ok block =>
      if block.isEmpty then return .ok (.holding (.file defaultRoom) [])
      else return .ok (← streamOf (h.read readSize) [block.toList])

/-- The input that the settings ask for. -/
def openInput (s : Settings) : IO (Except OpenError Stream) := do
  match s.inputFile with
  | some path => openFile path
  | none =>
    let stdin ← IO.getStdin
    return .ok (← streamOf (stdin.read readSize) [])

/-- Shows an outcome and gives the status to leave behind. -/
def present (o : Outcome CommandFailure) : IO UInt32 := do
  for entry in o.log do
    IO.eprintln entry.message
  if let some e := o.failure then
    IO.eprintln e.message
  IO.print o.written
  return (exitCode o).toUInt32

end AsmDialect.CommandLine

open AsmDialect CommandLine in
/-- Guesses what machine a source is meant for. -/
def main (args : List String) : IO UInt32 := do
  match Settings.ofArguments args with
  | .error e => present (.failed [] (.usage e))
  | .ok s => present (s.perform terminalVerbosity (← openInput s))
