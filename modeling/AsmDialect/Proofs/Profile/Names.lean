import AsmDialect.Proofs.Profile.Registers
/-!
# Names of registers by their width

Eleven short names mean 16 bits, and a letter before the short name of a general-purpose register
means 32 or 64. No other word names a register, be it a segment register with a letter before it, a
name with two letters or a name with a mark. The search for registers takes the mark off a word and
looks up what is left; where that is no name, it looks up the word with the mark on it. It can
afford to, because no name starts with the mark. Main statements: the words of a width
(`widthOf?_eq_some_iff`), that no name starts with the mark (`ofName?_mark`), and both with what
becomes of a word in the search (`names_by_width`).
-/

namespace AsmDialect

namespace Register

/-- The width that a word asks for, if it is the name of a register. -/
def widthOf? (t : String) : Option OperandWidth := (ofName? t).map width

/-! ## Words by their width -/

theorem widthOf?_eq_some_iff {t : String} {w : OperandWidth} :
    widthOf? t = some w ↔ ∃ r : Register, r.width = w ∧ r.name = t := by
  simp only [widthOf?, Option.map_eq_some_iff, ofName?_eq_some_iff]
  exact exists_congr fun r => and_comm

theorem widthOf?_eq_none_iff {t : String} : widthOf? t = none ↔ t ∉ Vocabulary.registerNames := by
  rw [widthOf?, Option.map_eq_none_iff, Option.eq_none_iff_forall_ne_some,
    Vocabulary.mem_registerNames, not_exists]
  exact forall_congr' fun r => not_congr ofName?_eq_some_iff

theorem mem_shortNames {t : String} :
    t ∈ Vocabulary.generalNames ∨ t ∈ Vocabulary.segmentNames ↔
      ∃ r : Register, r.width = .word ∧ r.name = t := by
  rw [Vocabulary.mem_generalNames, Vocabulary.mem_segmentNames]
  constructor
  · rintro (⟨g, h⟩ | ⟨g, h⟩)
    · exact ⟨.general .word g, rfl, h⟩
    · exact ⟨.segment g, rfl, h⟩
  · rintro ⟨r, hw, h⟩
    cases r with
    | segment g => exact .inr ⟨g, h⟩
    | general w g =>
      obtain rfl : w = .word := hw
      exact .inl ⟨g, h⟩

theorem mem_wideNames_iff {letter t : String} :
    t ∈ Vocabulary.wideNames letter ↔ ∃ g ∈ Vocabulary.generalNames, t = letter ++ g := by
  rw [Vocabulary.wideNames, List.mem_map]
  exact exists_congr fun g => and_congr_right fun _ => eq_comm

end Register

/-! ## Words with a mark -/

theorem Clue.ofToken?_mark (t : String) :
    ofToken? ("%" ++ t) = (Register.ofName? t).map (register · true) := by
  have ht : ("%" ++ t).toList = mark :: t.toList := by simp [mark]
  rw [ofToken?, ht]
  simp

/-- **No name starts with the mark**: as a name the word would give a clue that is not marked. -/
theorem Register.ofName?_mark (t : String) : ofName? ("%" ++ t) = none := by
  cases hname : ofName? ("%" ++ t) with
  | none => rfl
  | some r =>
    have hclue := Profile.ofToken?_of_ofName? hname
    rw [Clue.ofToken?_mark, Option.map_eq_some_iff] at hclue
    obtain ⟨r', -, hr'⟩ := hclue
    cases hr'

namespace Profile

theorem markedName?_mark (t : String) : markedName? ("%" ++ t) = Register.ofName? t := by
  have ht : ("%" ++ t).toList = Clue.mark :: t.toList := by simp [Clue.mark]
  rw [markedName?, ht]
  simp

/-- No word is a name both behind its mark and with the mark on it. -/
theorem markedName?_eq_none_or (t : String) :
    markedName? t = none ∨ Register.ofName? t = none := by
  cases hmarked : markedName? t with
  | none => exact .inl rfl
  | some r =>
    have ht : "%" ++ r.name = t := by
      rw [← Vocabulary.text_marked]
      exact markedName?_eq_some_iff.1 hmarked
    exact .inr (ht ▸ Register.ofName?_mark r.name)

/-- What a word with a mark comes to: what it asks for, in AT&T notation, if there is a name behind
the mark, and nothing otherwise. -/
theorem look_mark (p : Profile) (t : String) :
    p.look ("%" ++ t) =
      match Register.widthOf? t with
      | some w => { p with dialect := .att }.widen w
      | none => p := by
  rw [look, markedName?_mark, Register.ofName?_mark, Register.widthOf?]
  cases Register.ofName? t with
  | none => rfl
  | some r => rfl

end Profile

/-- **The names of registers.** A word asks for 16 bits if it is one of the eleven short names, for
32 or 64 if it is a letter and the short name of a general-purpose register, and it is no name
otherwise. All these names are different, so there is one width for each. No name starts with the
mark. So a word with a mark changes a profile only if there is a name behind the mark, and where the
search looks at a word behind its mark and then as a whole, it can find a name in one of the two at
most. -/
theorem Register.names_by_width :
    (∀ t : String,
      (widthOf? t = some .word ↔ t ∈ Vocabulary.generalNames ∨ t ∈ Vocabulary.segmentNames) ∧
      (widthOf? t = some .dword ↔ ∃ g ∈ Vocabulary.generalNames, t = "e" ++ g) ∧
      (widthOf? t = some .qword ↔ ∃ g ∈ Vocabulary.generalNames, t = "r" ++ g) ∧
      (widthOf? t = none ↔ t ∉ Vocabulary.registerNames)) ∧
      Vocabulary.registerNames.Nodup ∧
      (∀ t : String, widthOf? ("%" ++ t) = none) ∧
      (∀ (p : Profile) (t : String), p.scanRegisters (Clue.ofTokens ["%" ++ t]) =
        match widthOf? t with
        | some w => { p with dialect := .att }.widen w
        | none => p) ∧
      ∀ (p : Profile) (t : String), p.scanRegisters (Clue.ofTokens [t]) = p.look t ∧
        (Profile.markedName? t = none ∨ ofName? t = none) := by
  refine ⟨fun t => ⟨?_, ?_, ?_, widthOf?_eq_none_iff⟩, by decide, ?_, ?_, ?_⟩
  · rw [widthOf?_eq_some_iff, mem_shortNames]
  · rw [widthOf?_eq_some_iff, ← Vocabulary.mem_dwordNames, Vocabulary.dwordNames, mem_wideNames_iff]
  · rw [widthOf?_eq_some_iff, ← Vocabulary.mem_qwordNames, Vocabulary.qwordNames, mem_wideNames_iff]
  · intro t
    rw [widthOf?, ofName?_mark, Option.map_none]
  · intro p t
    rw [← Profile.look_eq_scanRegisters, Profile.look_mark]
  · intro p t
    exact ⟨(Profile.look_eq_scanRegisters p t).symm, Profile.markedName?_eq_none_or t⟩

/-- Too few letters, too many, a capital, and a mark that is part of the word. -/
example : ["", "e", "ecs", "reax", "AX", "%ax"].all (Register.widthOf? · = none) := by
  decide

end AsmDialect
