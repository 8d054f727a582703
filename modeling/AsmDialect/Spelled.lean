/-!
# Closed vocabularies

A vocabulary is a finite type whose members are each written in one way. `ofSpelling?` reads a
spelling back; `ofSpelling?_eq_some_iff` says that it accepts the spellings and nothing else.
-/

namespace AsmDialect

/-- A finite type with a listing of its members, each of which has a spelling of its own. -/
class Spelled (α : Type) where
  /-- All members, in the order of the vocabulary. -/
  all : List α
  /-- How a member is written. -/
  spelling : α → String
  mem_all : ∀ a, a ∈ all
  spelling_injective : ∀ a b, spelling a = spelling b → a = b

export Spelled (spelling)

variable {α : Type} [Spelled α]

/-- The member with the given spelling. -/
def ofSpelling? (t : String) : Option α := Spelled.all.find? fun a => spelling a == t

theorem ofSpelling?_eq_some_iff {t : String} {a : α} :
    ofSpelling? t = some a ↔ spelling a = t := by
  constructor
  · intro h
    simpa using List.find?_some h
  · rintro rfl
    cases h : (ofSpelling? (spelling a) : Option α) with
    | none => simpa using List.find?_eq_none.1 h a (Spelled.mem_all a)
    | some b => rw [Spelled.spelling_injective b a (by simpa using List.find?_some h)]

@[simp] theorem ofSpelling?_spelling (a : α) : ofSpelling? (spelling a) = some a :=
  ofSpelling?_eq_some_iff.2 rfl

end AsmDialect
