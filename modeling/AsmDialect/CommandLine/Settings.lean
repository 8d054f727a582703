import AsmDialect.CommandLine.Item
import AsmDialect.Numeral
import AsmDialect.Run
/-!
# Settings

The values of the flags, once an argument list has been gone through. Values are read in the order
of the list, so of two bad ones the first is reported, and of two good ones for the same flag the
last counts. What is wrong with the list as a whole comes after that: a flag the command does not
have, then a block size that is not positive, then an argument that belongs to no flag.
-/

namespace AsmDialect.CommandLine

/-- What can be wrong with an argument list. -/
inductive UsageError where
  /-- A flag without a value, as it was written. -/
  | missingValue (arg : String)
  /-- A value that is not the name of a form of the output. -/
  | badFormat (value : String)
  /-- A block size that is not a numeral. -/
  | badNumeral (value : String) (e : NumeralError)
  /-- A flag the command does not have. -/
  | unknownFlag (name : String)
  /-- A block size that is not positive, whatever numeral it was written as. -/
  | notPositive (n : Int)
  /-- An argument that belongs to no flag. -/
  | tooManyArguments
deriving DecidableEq, Repr

/-- What is said of a value that has to be positive and is not. -/
def positiveHint : String := "Flag must contain a positive number."

/-- A flag with a value, as messages show them. -/
def shown (f : Flag) (value : String) : String := s!"flag --{spelling f}={value}"

/-- What is reported of an argument list. -/
def UsageError.message : UsageError → String
  | missingValue arg => s!"Missing value for flag {arg}"
  | badFormat value =>
    s!"{shown .outputFormat value}: value should be one of <answer|report>"
  | badNumeral value e => s!"{shown .blockSize value}: {e.message}"
  | unknownFlag name => s!"Unknown command line flag '{name}'"
  | notPositive n => s!"{shown .blockSize (toString n)}: {positiveHint}"
  | tooManyArguments => "Too many command-line arguments."

/-- What the flags are set to. -/
structure Settings where
  inputFile : Option String := none
  format : OutputFormat := .answer
  blockSize : Int := defaultBlockSize
deriving DecidableEq, Repr

/-- The capital of a letter. The long s, which no keyboard has, is an S too. -/
def capital (c : Char) : Char := if c = 'ſ' then 'S' else c.toUpper

/-- The form of the output with the given name, in capitals or small letters. -/
def formatNamed? (t : String) : Option OutputFormat := Coded.ofName? (t.map capital)

/-- Whether a number can be a block size. -/
def isPositive (n : Int) : Bool := 0 < n

namespace Settings

/-- The settings with a flag set to the value that a text denotes. -/
def set (s : Settings) (f : Flag) (value : String) : Except UsageError Settings :=
  match f with
  | .inputFile => .ok { s with inputFile := some value }
  | .outputFormat =>
    match formatNamed? value with
    | some format => .ok { s with format }
    | none => .error (.badFormat value)
  | .blockSize =>
    match Numeral.parse value with
    | .ok n => .ok { s with blockSize := n }
    | .error e => .error (.badNumeral value e)

/-- The settings after an item of the argument list. -/
def step (s : Settings) : Item → Except UsageError Settings
  | .setting f value => s.set f value
  | .missing arg => .error (.missingValue arg)
  | .unknown _ => .ok s
  | .positional _ => .ok s

/-- The name of a flag the command does not have. -/
def unknownName? : Item → Option String
  | .unknown name => some name
  | _ => none

/-- Whether an item is an argument that belongs to no flag. -/
def isPositional : Item → Bool
  | .positional _ => true
  | _ => false

/-- Refuses settings if something is wrong with the list they come from as a whole. -/
def check (s : Settings) (items : List Item) : Except UsageError Settings :=
  match items.findSome? unknownName? with
  | some name => .error (.unknownFlag name)
  | none =>
    if !isPositive s.blockSize then .error (.notPositive s.blockSize)
    else if items.any isPositional then .error .tooManyArguments
    else .ok s

/-- The settings an argument list asks for. -/
def ofArguments (args : List String) : Except UsageError Settings := do
  let items := Item.ofArguments args
  let s ← items.foldlM step {}
  s.check items

/-- The choices for a run. -/
def options (s : Settings) (verbosity : Int) : RunOptions :=
  ⟨.known s.format, s.blockSize, verbosity⟩

end Settings

end AsmDialect.CommandLine
