import AsmDialect.Scalar
/-!
# Coded alternatives

A choice between a few alternatives has a title, and each alternative has a name and a code. The
code is how an alternative is given from outside; `ofCode?` finds the alternative that a code stands
for.
-/

namespace AsmDialect

/-- A choice between alternatives that are known by name and by code. -/
class Coded (α : Type) where
  /-- What is chosen. -/
  title : String
  /-- The alternatives, in order. -/
  all : List α
  /-- The name of an alternative, in capitals. -/
  name : α → String
  /-- The value that stands for an alternative. -/
  code : α → Scalar

namespace Coded

variable {α : Type} [Coded α]

/-- A value that is the code of no alternative of the choice with the given title. -/
structure UnknownCode where
  title : String
  value : Scalar
deriving DecidableEq, Repr

/-- What is reported of a value that is no code. -/
def UnknownCode.message (e : UnknownCode) : String := s!"{e.value.literal} is not a valid {e.title}"

/-- The alternative whose code is the given value. -/
def ofCode? (s : Scalar) : Except UnknownCode α :=
  match (all : List α).find? fun a => (code a).agrees s with
  | some a => .ok a
  | none => .error ⟨title α, s⟩

/-- The alternative with the given name. -/
def ofName? (t : String) : Option α := all.find? fun a => name a == t

/-- An alternative with its title, name and code. -/
def describe (a : α) : String := s!"<{title α}.{name a}: {(code a).literal}>"

end Coded

end AsmDialect
