import AsmDialect.Clue
import AsmDialect.Profile.Basic
/-!
# Reading a profile off the clues

Three scans each fill in a part of a profile: `scanArm` the instruction set and VFP, `scanRegisters`
the notation and width of x86 code, `scanX87` its floating point. The first two stop as soon as no
later clue can change their part. A source is x86 code unless ARM code is found in it, and then
nothing x86 is looked for (`ofClues`).
-/

namespace AsmDialect.Profile

/-- Looks for loads and stores of ARM. Says whether the code is known to be ARM, by these clues or
from before. -/
def scanArm (p : Profile) : List Clue → Bool × Profile
  | [] => (p.isa = .arm, p)
  | .register .. :: ks => scanArm p ks
  | .mnemonic m :: ks =>
    match m.family with
    | .vfp => (true, { p with isa := .arm, vfp := true })
    | .arm => scanArm { p with isa := .arm } ks
    | .x87 => scanArm p ks

/-- Takes the notation and the width from register names. Stops at a marked name once the width is
as large as can be. -/
def scanRegisters (p : Profile) : List Clue → Profile
  | [] => p
  | .mnemonic _ :: ks => scanRegisters p ks
  | .register r false :: ks => scanRegisters (p.widen r.width) ks
  | .register r true :: ks =>
    let q := { p with dialect := .att }.widen r.width
    if q.width = .qword then q else scanRegisters q ks

/-- Looks for instructions of the x87. -/
def scanX87 (p : Profile) (ks : List Clue) : Profile :=
  if ks.any (Clue.isOf .x87) then { p with x87 := true } else p

/-- The profile that clues add up to. -/
def ofClues (ks : List Clue) : Profile :=
  match scanArm {} ks with
  | (true, p) => p
  | (false, p) => (p.scanRegisters ks).scanX87 ks

/-- The profile of a source with the given words. -/
def ofTokens (ts : List String) : Profile := ofClues (Clue.ofTokens ts)

end AsmDialect.Profile
