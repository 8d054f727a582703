import AsmDialect.Clue
import AsmDialect.Source.Occurrence
import AsmDialect.Source.Text
/-!
# The vocabulary, written out

The words that say something about the machine, as plain lists of text. The lists are a second
account of the vocabulary beside the types `Mnemonic`, `Register` and `Clue`. Main statements: a
word is on the list of all of them just when it is how some clue is written (`mem_recognised`), and
a word on the list is among the words of a source just when its bytes are (`mem_tokens_iff`).
-/

namespace AsmDialect.Vocabulary

/-- Loads and stores of ARM, the last two of them of VFP. -/
def armMnemonics : List String := ["ldr", "str", "vldr", "vstr"]

/-- Instructions of the x87. -/
def x87Mnemonics : List String := ["finit", "fld", "fst"]

/-- The short names of general-purpose registers. -/
def generalNames : List String := ["ax", "bx", "cx", "dx", "si", "di", "sp", "bp"]

/-- The names of segment registers. -/
def segmentNames : List String := ["cs", "ds", "ss"]

/-- The short names of general-purpose registers with a letter before each. -/
def wideNames (letter : String) : List String := generalNames.map (letter ++ ·)

/-- The names of general-purpose registers of 32 bits. -/
def dwordNames : List String := wideNames "e"

/-- The names of general-purpose registers of 64 bits. -/
def qwordNames : List String := wideNames "r"

/-- The names of registers. There are 27 of them. -/
def registerNames : List String := generalNames ++ segmentNames ++ dwordNames ++ qwordNames

/-- Names with the mark of AT&T notation before each. -/
def marked (names : List String) : List String := names.map ("%" ++ ·)

/-- The words that give a clue. -/
def recognised : List String :=
  armMnemonics ++ x87Mnemonics ++ registerNames ++ marked registerNames

theorem mem_map_spelling (α : Type) [Spelled α] {t : String} :
    t ∈ (Spelled.all : List α).map spelling ↔ ∃ a : α, spelling a = t := by
  rw [List.mem_map]
  constructor
  · rintro ⟨a, -, rfl⟩
    exact ⟨a, rfl⟩
  · rintro ⟨a, rfl⟩
    exact ⟨a, Spelled.mem_all a, rfl⟩

theorem mem_mnemonics {t : String} :
    t ∈ armMnemonics ++ x87Mnemonics ↔ ∃ m : Mnemonic, spelling m = t :=
  mem_map_spelling Mnemonic

theorem mem_generalNames {t : String} :
    t ∈ generalNames ↔ ∃ g : GeneralRegister, spelling g = t :=
  mem_map_spelling GeneralRegister

theorem mem_segmentNames {t : String} :
    t ∈ segmentNames ↔ ∃ g : SegmentRegister, spelling g = t :=
  mem_map_spelling SegmentRegister

/-! ## Registers -/

/-- Names with the letter of a width before them are the names of the registers of this width. -/
theorem mem_wideNames {letter : String} {w : OperandWidth} (hw : w ≠ .word)
    (h : ∀ g, (Register.general w g).name = letter ++ spelling g) {t : String} :
    t ∈ wideNames letter ↔ ∃ r : Register, r.width = w ∧ r.name = t := by
  simp only [wideNames, List.mem_map, mem_generalNames]
  constructor
  · rintro ⟨-, ⟨g, rfl⟩, rfl⟩
    exact ⟨.general w g, rfl, h g⟩
  · rintro ⟨r, rfl, rfl⟩
    cases r with
    | segment g => exact absurd rfl hw
    | general w g => exact ⟨_, ⟨g, rfl⟩, (h g).symm⟩

theorem mem_dwordNames (t : String) :
    t ∈ dwordNames ↔ ∃ r : Register, r.width = .dword ∧ r.name = t :=
  mem_wideNames (by decide) fun g =>
    String.toList_inj.1 (by simp [Register.name, Register.dwordLetter])

theorem mem_qwordNames (t : String) :
    t ∈ qwordNames ↔ ∃ r : Register, r.width = .qword ∧ r.name = t :=
  mem_wideNames (by decide) fun g =>
    String.toList_inj.1 (by simp [Register.name, Register.qwordLetter])

theorem mem_registerNames {t : String} : t ∈ registerNames ↔ ∃ r : Register, r.name = t := by
  simp only [registerNames, List.mem_append, mem_generalNames, mem_segmentNames, mem_dwordNames,
    mem_qwordNames]
  constructor
  · rintro (((⟨g, h⟩ | ⟨g, h⟩) | ⟨r, -, h⟩) | ⟨r, -, h⟩)
    · exact ⟨.general .word g, h⟩
    · exact ⟨.segment g, h⟩
    · exact ⟨r, h⟩
    · exact ⟨r, h⟩
  · rintro ⟨r, h⟩
    cases r with
    | segment g => exact .inl (.inl (.inr ⟨g, h⟩))
    | general w g =>
      cases w with
      | word => exact .inl (.inl (.inl ⟨g, h⟩))
      | dword => exact .inl (.inr ⟨_, rfl, h⟩)
      | qword => exact .inr ⟨_, rfl, h⟩

/-! ## Clues -/

theorem text_marked (r : Register) : (Clue.register r true).text = "%" ++ r.name :=
  String.toList_inj.1 (by simp [Clue.text, Clue.mark])

/-- Where names are those of some registers, marked names are how these are written with a mark. -/
theorem mem_marked {names : List String} {P : Register → Prop}
    (h : ∀ t, t ∈ names ↔ ∃ r : Register, P r ∧ r.name = t) {t : String} :
    t ∈ marked names ↔ ∃ r : Register, P r ∧ (Clue.register r true).text = t := by
  simp only [marked, List.mem_map, h, text_marked]
  constructor
  · rintro ⟨-, ⟨r, hr, rfl⟩, rfl⟩
    exact ⟨r, hr, rfl⟩
  · rintro ⟨r, hr, rfl⟩
    exact ⟨_, ⟨r, hr, rfl⟩, rfl⟩

theorem mem_marked_registerNames {t : String} :
    t ∈ marked registerNames ↔ ∃ r : Register, (Clue.register r true).text = t := by
  have h (u : String) : u ∈ registerNames ↔ ∃ r : Register, True ∧ r.name = u := by
    simp only [mem_registerNames, true_and]
  rw [mem_marked h]
  simp only [true_and]

/-- Names of mnemonics of one group are how clues of this group are written. -/
theorem mem_spelled_iff (f : Family) (t : String) :
    t ∈ (Mnemonic.ofFamily f).map spelling ↔ ∃ k : Clue, k.isOf f = true ∧ k.text = t := by
  rw [List.mem_map]
  constructor
  · rintro ⟨m, hm, rfl⟩
    exact ⟨.mnemonic m, (List.mem_filter.1 hm).2, rfl⟩
  · rintro ⟨k, hk, rfl⟩
    cases k with
    | mnemonic m => exact ⟨m, List.mem_filter.2 ⟨Spelled.mem_all m, hk⟩, rfl⟩
    | register r mark => cases hk

/-- There is a clue of a group among words where one of the group's mnemonics is among them. -/
theorem any_isOf_iff {f : Family} {ts : List String} :
    (Clue.ofTokens ts).any (Clue.isOf f) = true ↔
      ∃ t ∈ (Mnemonic.ofFamily f).map spelling, t ∈ ts := by
  rw [List.any_eq_true]
  constructor
  · rintro ⟨k, hk, hf⟩
    exact ⟨k.text, (mem_spelled_iff f k.text).2 ⟨k, hf, rfl⟩, Clue.mem_ofTokens.1 hk⟩
  · rintro ⟨t, ht, hts⟩
    obtain ⟨k, hf, rfl⟩ := (mem_spelled_iff f t).1 ht
    exact ⟨k, Clue.mem_ofTokens.2 hts, hf⟩

/-- **The list of clues**: a word is on it just when it is how a clue is written. -/
theorem mem_recognised {t : String} : t ∈ recognised ↔ ∃ k : Clue, k.text = t := by
  rw [recognised, List.mem_append, List.mem_append, mem_mnemonics, mem_registerNames,
    mem_marked_registerNames]
  constructor
  · rintro ((⟨m, h⟩ | ⟨r, h⟩) | ⟨r, h⟩)
    · exact ⟨.mnemonic m, h⟩
    · exact ⟨.register r false, h⟩
    · exact ⟨.register r true, h⟩
  · rintro ⟨k, h⟩
    cases k with
    | mnemonic m => exact .inl (.inl ⟨m, h⟩)
    | register r mark =>
      cases mark with
      | false => exact .inl (.inr ⟨r, h⟩)
      | true => exact .inr ⟨r, h⟩

end AsmDialect.Vocabulary

namespace AsmDialect.Source

/-! ## In bytes -/

theorem decode_ofText {t : String} (ht : t ∈ Vocabulary.recognised) :
    Text.Latin.decode (ofText t) = t := by
  have hall : Vocabulary.recognised.all (·.toList.all (·.toNat < 256)) = true := by decide
  apply decode_ofText_of_lt
  intro c hc
  exact of_decide_eq_true (List.all_eq_true.1 (List.all_eq_true.1 hall t ht) c hc)

/-- No word of the vocabulary has a separator in it. -/
theorem isWord_ofText {t : String} (ht : t ∈ Vocabulary.recognised) : IsWord (ofText t) := by
  have hall : Vocabulary.recognised.all (fun u =>
      !(ofText u).isEmpty && (ofText u).all (!isSeparator ·)) = true := by
    decide
  have h := List.all_eq_true.1 hall t ht
  simp only [Bool.and_eq_true, List.all_eq_true, Bool.not_eq_true', List.isEmpty_eq_false_iff] at h
  exact h

/-- **Words of the vocabulary in bytes**. -/
theorem mem_tokens_iff {t : String} (ht : t ∈ Vocabulary.recognised) {s : Source} :
    t ∈ s.tokens ↔ ofText t ∈ s.words := by
  rw [tokens, List.mem_map]
  constructor
  · rintro ⟨w, hw, rfl⟩
    rwa [ofText_decode]
  · intro h
    exact ⟨ofText t, h, decode_ofText ht⟩

end AsmDialect.Source
