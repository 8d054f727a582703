import AsmDialect.Machine
import AsmDialect.Spelled
/-!
# Registers of x86

A general-purpose register has three names: the short one for its low 16 bits, `e` before it for 32
bits, `r` before it for 64. A segment register has its short name alone. Main statement: `ofName?`
accepts exactly the names that `name` gives (`ofName?_eq_some_iff`), so a name belongs to one
register and has one width.
-/

namespace AsmDialect

/-- A general-purpose register, whatever part of it is meant. -/
inductive GeneralRegister where
  | ax
  | bx
  | cx
  | dx
  | si
  | di
  | sp
  | bp
deriving DecidableEq, Repr

instance : Spelled GeneralRegister where
  all := [.ax, .bx, .cx, .dx, .si, .di, .sp, .bp]
  spelling
    | .ax => "ax"
    | .bx => "bx"
    | .cx => "cx"
    | .dx => "dx"
    | .si => "si"
    | .di => "di"
    | .sp => "sp"
    | .bp => "bp"
  mem_all r := by cases r <;> decide
  spelling_injective a b := by cases a <;> cases b <;> decide

/-- A segment register. -/
inductive SegmentRegister where
  | cs
  | ds
  | ss
deriving DecidableEq, Repr

instance : Spelled SegmentRegister where
  all := [.cs, .ds, .ss]
  spelling
    | .cs => "cs"
    | .ds => "ds"
    | .ss => "ss"
  mem_all r := by cases r <;> decide
  spelling_injective a b := by cases a <;> cases b <;> decide

/-- A register as code names it. -/
inductive Register where
  /-- The part of a general-purpose register that has the given width. -/
  | general (width : OperandWidth) (r : GeneralRegister)
  | segment (r : SegmentRegister)
deriving DecidableEq, Repr

namespace Register

/-- The letter before a general-purpose register's short name that asks for 32 bits. -/
def dwordLetter : Char := 'e'

/-- The letter before a general-purpose register's short name that asks for 64 bits. -/
def qwordLetter : Char := 'r'

/-- The name of a register. -/
def name : Register → String
  | general .word r => spelling r
  | general .dword r => String.ofList (dwordLetter :: (spelling r).toList)
  | general .qword r => String.ofList (qwordLetter :: (spelling r).toList)
  | segment r => spelling r

/-- The width of the operands that a register holds. -/
def width : Register → OperandWidth
  | general w _ => w
  | segment _ => .word

/-- The width that a letter before a short name asks for. -/
def widthOfLetter? (c : Char) : Option OperandWidth :=
  if c = dwordLetter then some .dword else if c = qwordLetter then some .qword else none

/-- The register whose name is a letter and a short name. -/
def ofWideName? : List Char → Option Register
  | [] => none
  | c :: rest => do
    let w ← widthOfLetter? c
    let r ← ofSpelling? (String.ofList rest)
    return general w r

/-- The register with the given name. -/
def ofName? (t : String) : Option Register :=
  (ofSpelling? t).map segment <|> (ofSpelling? t).map (general .word) <|> ofWideName? t.toList

theorem ofWideName?_eq_some {cs : List Char} {r : Register} (h : ofWideName? cs = some r) :
    r.name.toList = cs := by
  cases cs with
  | nil => simp [ofWideName?] at h
  | cons c rest =>
    simp only [ofWideName?, Option.bind_eq_bind, Option.bind_eq_some_iff, ofSpelling?_eq_some_iff,
      Option.pure_def, Option.some.injEq] at h
    obtain ⟨w, hw, g, hg, rfl⟩ := h
    unfold widthOfLetter? at hw
    split at hw
    next hc => cases hw; simp [name, hg, hc]
    next =>
      split at hw
      next hc => cases hw; simp [name, hg, hc]
      next => cases hw

theorem ofName?_name (r : Register) : ofName? r.name = some r := by
  cases r with
  | general w g => cases w <;> cases g <;> decide
  | segment g => cases g <;> decide

/-- **The grammar of register names**: what is read as a register is one of the names registers are
given, and each name is read as its own register. -/
theorem ofName?_eq_some_iff {t : String} {r : Register} : ofName? t = some r ↔ r.name = t := by
  constructor
  · intro h
    simp only [ofName?, Option.orElse_eq_orElse, Option.orElse_eq_or, Option.or_eq_some_iff,
      Option.map_eq_some_iff, ofSpelling?_eq_some_iff] at h
    rcases h with ⟨g, hg, rfl⟩ | ⟨-, ⟨g, hg, rfl⟩ | ⟨-, h⟩⟩
    · exact hg
    · exact hg
    · exact String.toList_inj.1 (ofWideName?_eq_some h)
  · rintro rfl
    exact ofName?_name r

end Register

end AsmDialect
