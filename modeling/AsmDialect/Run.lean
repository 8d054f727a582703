import AsmDialect.Profile.Answer
import AsmDialect.Stream.Reading
import AsmDialect.Survey
/-!
# A run

A run reads a stream to its end, surveys what was delivered and writes the profile with a line end
after it. Three things can go wrong, in this order: the block size, the stream, the form asked for.
A run that fails writes nothing.
-/

namespace AsmDialect

/-- What comes of an activity that writes, keeps a log and may fail. -/
structure Outcome (ε : Type) where
  /-- The text written. -/
  written : String
  /-- The entries shown. -/
  log : Log
  failure : Option ε
deriving DecidableEq, Repr

namespace Outcome

variable {ε δ : Type}

/-- The outcome of an activity that broke off before it wrote anything. -/
def failed (log : Log) (e : ε) : Outcome ε := ⟨"", log, some e⟩

/-- The outcome with its failure seen as another kind of failure. -/
def mapFailure (f : ε → δ) (o : Outcome ε) : Outcome δ := ⟨o.written, o.log, o.failure.map f⟩

/-- The outcome with more entries in front of its own. -/
def after (log : Log) (o : Outcome ε) : Outcome ε := { o with log := log ++ o.log }

end Outcome

/-- What can go wrong in a run. -/
inductive RunFailure where
  | blockSize (e : BadBlockSize)
  /-- A fault of the stream that is not the device's. -/
  | stream (kind : FaultKind) (message : String)
  | format (e : UnknownFormat)
deriving DecidableEq, Repr

/-- What is reported of a failed run. A fault of the stream brings its own words. -/
def RunFailure.message : RunFailure → String
  | blockSize e => e.message
  | stream _ message => message
  | format e => e.message

/-- What can be chosen for a run. -/
structure RunOptions where
  format : FormatRequest := .known .answer
  blockSize : Int := defaultBlockSize
  /-- Which entries of the log are shown. -/
  verbosity : Int := 0
deriving DecidableEq, Repr

/-- Surveys a source that was delivered and writes its profile. The entries made so far come first
in the log. -/
def conclude (o : RunOptions) (soFar : Log) (s : Source) : Outcome RunFailure :=
  let survey := s.survey
  let log := (soFar ++ survey.log).visible o.verbosity
  match survey.profile.render o.format with
  | .error e => .failed log (.format e)
  | .ok text => ⟨text ++ "\n", log, none⟩

/-- Reads a source from a stream and writes its profile. -/
def run (o : RunOptions) (s : Stream) : Outcome RunFailure :=
  match s.readAll o.blockSize with
  | .error e => .failed [] (.blockSize e)
  | .ok reading =>
    match reading.ending with
    | .raised kind message => .failed (reading.log.visible o.verbosity) (.stream kind message)
    | .complete => conclude o reading.log reading.bytes
    | .broken => conclude o reading.log reading.bytes

end AsmDialect
