import AsmDialect.Spelled
/-!
# Telling mnemonics

Most instructions exist on several machines under the same name. The mnemonics listed here give
their machine away: ARM loads and stores, with a `v` in front when they belong to its vector
floating point unit (VFP), and the commonest instructions of the x87 floating point unit.
-/

namespace AsmDialect

/-- The instruction groups that a mnemonic can point to. -/
inductive Family where
  /-- Loads and stores of the ARM core. -/
  | arm
  /-- Loads and stores of the ARM vector floating point unit. -/
  | vfp
  /-- Instructions of the x87 floating point unit. -/
  | x87
deriving DecidableEq, Repr

/-- A mnemonic that gives its machine away. -/
inductive Mnemonic where
  | ldr
  | str
  | vldr
  | vstr
  | finit
  | fld
  | fst
deriving DecidableEq, Repr

namespace Mnemonic

/-- The group a mnemonic belongs to. -/
def family : Mnemonic → Family
  | ldr | str => .arm
  | vldr | vstr => .vfp
  | finit | fld | fst => .x87

instance : Spelled Mnemonic where
  all := [ldr, str, vldr, vstr, finit, fld, fst]
  spelling
    | ldr => "ldr"
    | str => "str"
    | vldr => "vldr"
    | vstr => "vstr"
    | finit => "finit"
    | fld => "fld"
    | fst => "fst"
  mem_all m := by cases m <;> decide
  spelling_injective a b := by cases a <;> cases b <;> decide

/-- The mnemonics of one group, in the order of the vocabulary. -/
def ofFamily (f : Family) : List Mnemonic := Spelled.all.filter (family · = f)

end Mnemonic

end AsmDialect
