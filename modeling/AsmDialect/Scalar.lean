import AsmDialect.Text.Quoted
/-!
# Scalars

The plain values that a caller may hand in where one of a few alternatives is expected. A scalar is
shown in messages by its literal.
-/

namespace AsmDialect

/-- A plain value. -/
inductive Scalar where
  | none
  | bool (b : Bool)
  | int (n : Int)
  | text (t : String)
deriving DecidableEq, Repr

namespace Scalar

/-- A scalar as messages show it. -/
def literal : Scalar → String
  | none => "None"
  | bool true => "True"
  | bool false => "False"
  | int n => toString n
  | text t => Text.quoted t

/-- A truth value read as a number, any other scalar unchanged. -/
def numeric : Scalar → Scalar
  | bool true => int 1
  | bool false => int 0
  | s => s

/-- Two scalars agree when they are the same value, where truth values count as the numbers 1
and 0. -/
def agrees (s t : Scalar) : Bool := s.numeric = t.numeric

end Scalar

end AsmDialect
