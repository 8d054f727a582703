import AsmDialect.Machine
/-!
# Profiles

A profile is what is known of a source: its instruction set, and for either set the further
findings. It starts as the plainest guess, 16-bit x86 code in Intel notation without floating point,
and only ever grows from there. Main statement: widening takes the wider of two widths
(`width_widen`).
-/

namespace AsmDialect

/-- What is known of a source. -/
structure Profile where
  isa : Isa := .x86
  /-- Whether instructions of the ARM vector floating point unit were seen. -/
  vfp : Bool := false
  dialect : Dialect := .intel
  /-- The widest x86 operands seen. -/
  width : OperandWidth := .word
  /-- Whether x87 instructions were seen. -/
  x87 : Bool := false
deriving DecidableEq, Repr

namespace Profile

/-- The profile with operands at least as wide as the given ones. -/
def widen (p : Profile) (w : OperandWidth) : Profile :=
  if p.width.bits < w.bits then { p with width := w } else p

theorem widen_eq (p : Profile) (w : OperandWidth) :
    p.widen w = { p with width := max p.width w } := by
  rcases p with ⟨isa, vfp, dialect, width, x87⟩
  cases width <;> cases w <;> rfl

@[simp] theorem width_widen (p : Profile) (w : OperandWidth) :
    (p.widen w).width = max p.width w := by
  rw [widen_eq]

/-- The text of a truth value in descriptions. -/
def truthText (b : Bool) : String := (Scalar.bool b).literal

/-- All of a profile in one line. -/
def describe (p : Profile) : String :=
  s!"Classification(isa={Coded.describe p.isa}, has_vfp_instructions={truthText p.vfp}, " ++
    s!"x86_flavor={Coded.describe p.dialect}, x86_operand_width={Coded.describe p.width}, " ++
    s!"has_x87_instructions={truthText p.x87})"

end Profile

end AsmDialect
