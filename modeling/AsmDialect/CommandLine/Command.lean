import AsmDialect.CommandLine.Settings
import AsmDialect.Files
/-!
# The command

The command guesses what machine the source in a file, or on its standard input, is meant for. It
looks at no file and reads nothing before its arguments have been found to be in order, and it has
one input: with a file to read, standard input is not touched.
-/

namespace AsmDialect.CommandLine

/-- What can go wrong with the command. -/
inductive CommandFailure where
  | usage (e : UsageError)
  /-- The input file cannot be opened. -/
  | file (e : OpenError)
  | run (e : RunFailure)
deriving DecidableEq, Repr

/-- What is reported of the command. -/
def CommandFailure.message : CommandFailure → String
  | usage e => e.message
  | file e => e.message
  | run e => e.message

namespace Settings

/-- What is noted before the input is opened. Standard input is open from the start. -/
def opening (s : Settings) : Log :=
  match s.inputFile with
  | none => []
  | some path => [.readingFrom path]

/-- The input that is read. -/
def input (s : Settings) (files : FileSet) (stdin : Stream) : Except OpenError Stream :=
  match s.inputFile with
  | none => .ok stdin
  | some path => files.opened path

/-- Runs on an input, or reports why there is none. -/
def perform (s : Settings) (verbosity : Int) (input : Except OpenError Stream) :
    Outcome CommandFailure :=
  let outcome : Outcome CommandFailure :=
    match input with
    | .error e => .failed [] (.file e)
    | .ok stream => (run (s.options verbosity) stream).mapFailure .run
  outcome.after (s.opening.visible verbosity)

end Settings

/-- The command with the given arguments, files and standard input. -/
def command (verbosity : Int) (args : List String) (files : FileSet) (stdin : Stream) :
    Outcome CommandFailure :=
  match Settings.ofArguments args with
  | .error e => .failed [] (.usage e)
  | .ok s => s.perform verbosity (s.input files stdin)

/-- The status that the command leaves behind. -/
def exitCode (o : Outcome CommandFailure) : Nat := if o.failure.isSome then 1 else 0

end AsmDialect.CommandLine
