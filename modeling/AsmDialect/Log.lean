import AsmDialect.Profile.Basic
import AsmDialect.Source.Basic
import AsmDialect.Text.Latin
/-!
# The log

What happens on the way to an answer is noted in a log. An entry has a level, and a verbosity
decides which levels are shown: zero shows all but details, and each step down hides one level more.
-/

namespace AsmDialect

/-- How much an entry matters. -/
inductive Level where
  | debug
  | info
  | warning
deriving DecidableEq, Repr

/-- The least verbosity at which entries of a level are shown. -/
def Level.threshold : Level → Int
  | .debug => 1
  | .info => 0
  | .warning => -1

/-- A note on the way to an answer. -/
inductive Entry where
  /-- The source is going to be read from a file. -/
  | readingFrom (path : String)
  /-- The input broke off after so many bytes. -/
  | readFailed (count : Nat)
  /-- So many bytes were read in all. -/
  | bytesRead (count : Nat)
  /-- The source as it is read for words. -/
  | prepared (s : Source)
  /-- So many words were found. -/
  | tokensFound (count : Nat)
  /-- What the words add up to. -/
  | profiled (p : Profile)
deriving DecidableEq, Repr

namespace Entry

/-- How much an entry matters. -/
def level : Entry → Level
  | readingFrom _ => .info
  | readFailed _ => .warning
  | _ => .debug

/-- The text of an entry. -/
def message : Entry → String
  | readingFrom path => s!"Reading the source code from {path}"
  | readFailed n => s!"Reading the input failed after {n} bytes, using the data read so far."
  | bytesRead n => s!"Read {n} bytes of input."
  | prepared s => "Preprocessed source code:\n" ++ Text.Latin.decode s
  | tokensFound n => s!"Found {n} tokens."
  | profiled p => "Classification: " ++ p.describe

end Entry

/-- Entries in the order in which they were made. -/
abbrev Log := List Entry

/-- The entries that are shown at a verbosity. -/
def Log.visible (verbosity : Int) (l : Log) : Log :=
  l.filter fun e => e.level.threshold ≤ verbosity

theorem Log.visible_singleton (verbosity : Int) (e : Entry) :
    Log.visible verbosity [e] = if e.level.threshold ≤ verbosity then [e] else [] := by
  simp [visible, List.filter_cons]

end AsmDialect
