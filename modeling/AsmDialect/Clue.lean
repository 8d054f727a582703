import AsmDialect.Mnemonic
import AsmDialect.Register
/-!
# Clues

Few words of a source say anything about its machine: the telling mnemonics, and the names of x86
registers with or without the mark of AT&T notation before them. Such a word is a clue; any other
word is passed over. Main statement: a clue is read off exactly the word it is written as
(`ofToken?_eq_some_iff`).
-/

namespace AsmDialect

/-- A word that says something about the machine. -/
inductive Clue where
  | mnemonic (m : Mnemonic)
  /-- A register name, marked or bare. -/
  | register (r : Register) (marked : Bool)
deriving DecidableEq, Repr

namespace Clue

/-- The mark before register names in AT&T notation. -/
def mark : Char := '%'

/-- A clue as it is written. -/
def text : Clue → String
  | mnemonic m => spelling m
  | register r true => String.ofList (mark :: r.name.toList)
  | register r false => r.name

/-- Whether a clue is a mnemonic of the given group. -/
def isOf (f : Family) : Clue → Bool
  | mnemonic m => m.family = f
  | register .. => false

/-- Whether a clue is a load or store of ARM, be it of the core or of VFP. -/
def tellsArm (k : Clue) : Bool := k.isOf .arm || k.isOf .vfp

/-- Whether a clue is a register name with a mark. -/
def isMarked : Clue → Bool
  | mnemonic _ => false
  | register _ marked => marked

/-- The width that a clue asks for, if it is a register name. -/
def width? : Clue → Option OperandWidth
  | mnemonic _ => none
  | register r _ => some r.width

/-- The clue that a bare word gives. -/
def ofBare? (t : String) : Option Clue :=
  (ofSpelling? t).map mnemonic <|> (Register.ofName? t).map (register · false)

/-- The clue that a word gives. -/
def ofToken? (t : String) : Option Clue :=
  match t.toList with
  | [] => none
  | c :: rest =>
    if c = mark then (Register.ofName? (String.ofList rest)).map (register · true) else ofBare? t

/-- The clues among the words of a source, in order. -/
def ofTokens (ts : List String) : List Clue := ts.filterMap ofToken?

theorem ofToken?_text (k : Clue) : ofToken? k.text = some k := by
  cases k with
  | mnemonic m => cases m <;> decide
  | register r marked =>
    cases r with
    | general w g => cases marked <;> cases w <;> cases g <;> decide
    | segment g => cases marked <;> cases g <;> decide

theorem ofBare?_eq_some {t : String} {k : Clue} (h : ofBare? t = some k) : k.text = t := by
  simp only [ofBare?, Option.orElse_eq_orElse, Option.orElse_eq_or, Option.or_eq_some_iff,
    Option.map_eq_some_iff, ofSpelling?_eq_some_iff, Register.ofName?_eq_some_iff] at h
  rcases h with ⟨m, hm, rfl⟩ | ⟨-, r, hr, rfl⟩
  · exact hm
  · exact hr

/-- **What a clue looks like**: a word gives a clue just when it is the clue's text. -/
theorem ofToken?_eq_some_iff {t : String} {k : Clue} : ofToken? t = some k ↔ k.text = t := by
  constructor
  · intro h
    unfold ofToken? at h
    split at h
    next => cases h
    next c rest ht =>
      split at h
      next hc =>
        simp only [Option.map_eq_some_iff, Register.ofName?_eq_some_iff] at h
        obtain ⟨r, hr, rfl⟩ := h
        exact String.toList_inj.1 (by simp [text, hr, ht, hc])
      next => exact ofBare?_eq_some h
  · rintro rfl
    exact ofToken?_text k

theorem mem_ofTokens {k : Clue} {ts : List String} : k ∈ ofTokens ts ↔ k.text ∈ ts := by
  simp [ofTokens, ofToken?_eq_some_iff]

theorem ofTokens_append (ts us : List String) :
    ofTokens (ts ++ us) = ofTokens ts ++ ofTokens us :=
  List.filterMap_append

end Clue

end AsmDialect
