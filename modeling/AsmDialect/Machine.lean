import AsmDialect.Coded
/-!
# What is guessed

The alternatives for each thing the guess decides: the instruction set, the notation of x86 code and
the width of its operands. Widths are ordered by their number of bits, which are their codes too.
-/

namespace AsmDialect

/-- The instruction set architecture of a source. -/
inductive Isa where
  | x86
  | arm
deriving DecidableEq, Repr

instance : Coded Isa where
  title := "InstructionSetArchitecture"
  all := [.x86, .arm]
  name
    | .x86 => "X86"
    | .arm => "ARM"
  code
    | .x86 => .int 0
    | .arm => .int 1

/-- The notation of x86 code. In AT&T notation each register name is marked with `%`. -/
inductive Dialect where
  | intel
  | att
deriving DecidableEq, Repr

instance : Coded Dialect where
  title := "X86Flavor"
  all := [.intel, .att]
  name
    | .intel => "INTEL"
    | .att => "ATT"
  code
    | .intel => .int 0
    | .att => .int 1

/-- The width of x86 operands. -/
inductive OperandWidth where
  | word
  | dword
  | qword
deriving DecidableEq, Repr

namespace OperandWidth

/-- The number of bits of an operand. -/
def bits : OperandWidth → Nat
  | word => 16
  | dword => 32
  | qword => 64

instance : LE OperandWidth := ⟨fun v w => v.bits ≤ w.bits⟩

instance (v w : OperandWidth) : Decidable (v ≤ w) := inferInstanceAs (Decidable (v.bits ≤ w.bits))

/-- The wider of two widths. -/
instance : Max OperandWidth := ⟨fun v w => if v ≤ w then w else v⟩

theorem max_assoc (u v w : OperandWidth) : max (max u v) w = max u (max v w) := by
  cases u <;> cases v <;> cases w <;> rfl

theorem max_comm (v w : OperandWidth) : max v w = max w v := by
  cases v <;> cases w <;> rfl

theorem qword_max (w : OperandWidth) : max qword w = qword := by
  cases w <;> rfl

theorem word_max (w : OperandWidth) : max word w = w := by
  cases w <;> rfl

/-- The widest of the given widths and one more. -/
def widest (v : OperandWidth) (ws : List OperandWidth) : OperandWidth := ws.foldl max v

theorem widest_qword (ws : List OperandWidth) : widest qword ws = qword := by
  induction ws with
  | nil => rfl
  | cons w ws ih => rwa [widest, List.foldl_cons, qword_max]

instance : Coded OperandWidth where
  title := "OperandWidth"
  all := [word, dword, qword]
  name
    | word => "WORD"
    | dword => "DWORD"
    | qword => "QWORD"
  code w := .int w.bits

end OperandWidth

end AsmDialect
