import AsmDialect.Proofs.Profile.Gains
import AsmDialect.Proofs.Vocabulary
/-!
# Register names among words

The search for registers stops at a marked name of 64 bits, and at any marked name if the profile
has 64 bits by then. Words after that are not looked at, and they could change nothing: the notation
is AT&T, and there is no wider width. Main statements: the search comes to what going through all
words comes to (`scanRegisters_eq_foldl`), and its findings by which names there are among the
words, wherever they stand (`scanRegisters_of_names`).
-/

namespace AsmDialect

namespace OperandWidth

/-! ## The widest of some widths -/

theorem le_max_left (v w : OperandWidth) : v ≤ max v w := by
  cases v <;> cases w <;> decide

theorem le_max_right (v w : OperandWidth) : w ≤ max v w := by
  rw [max_comm]
  exact le_max_left w v

theorem le_trans {u v w : OperandWidth} (h : u ≤ v) (h' : v ≤ w) : u ≤ w :=
  Nat.le_trans h h'

theorem le_widest (v : OperandWidth) (ws : List OperandWidth) : v ≤ v.widest ws := by
  induction ws generalizing v with
  | nil => exact Nat.le_refl v.bits
  | cons w ws ih => exact le_trans (le_max_left v w) (ih (max v w))

theorem le_widest_of_mem {w : OperandWidth} {ws : List OperandWidth} (h : w ∈ ws)
    (v : OperandWidth) : w ≤ v.widest ws := by
  induction ws generalizing v with
  | nil => cases h
  | cons u ws ih =>
    rcases List.mem_cons.1 h with rfl | h
    · exact le_trans (le_max_right v w) (le_widest (max v w) ws)
    · exact ih h (max v u)

theorem max_eq (v w : OperandWidth) : max v w = v ∨ max v w = w := by
  cases v <;> cases w <;> decide

/-- The widest width is one of those it is taken from. -/
theorem widest_eq_or_mem (v : OperandWidth) (ws : List OperandWidth) :
    v.widest ws = v ∨ v.widest ws ∈ ws := by
  induction ws generalizing v with
  | nil => exact .inl rfl
  | cons w ws ih =>
    have hcons : v.widest (w :: ws) = (max v w).widest ws := rfl
    rw [hcons, List.mem_cons]
    rcases ih (max v w) with h | h
    · rw [h]
      exact (max_eq v w).imp id .inl
    · exact .inr (.inr h)

end OperandWidth

namespace Profile

/-! ## Word by word -/

/-- The register whose name stands after the mark in a word. -/
def markedName? (t : String) : Option Register :=
  match t.toList with
  | [] => none
  | c :: rest => if c = Clue.mark then Register.ofName? (String.ofList rest) else none

/-- The profile after a word, looked at whatever the profile has already. The mark counts with a
register name after it; a word that starts with the mark and goes on otherwise is looked up as a
whole, as words without the mark are. -/
def look (p : Profile) (t : String) : Profile :=
  match markedName? t with
  | some r => { p with dialect := .att }.widen r.width
  | none =>
    match Register.ofName? t with
    | some r => p.widen r.width
    | none => p

theorem markedName?_eq_some_iff {t : String} {r : Register} :
    markedName? t = some r ↔ (Clue.register r true).text = t := by
  rw [← String.toList_inj]
  unfold markedName?
  split
  next ht => simp [ht, Clue.text]
  next c rest ht =>
    rw [ht, Clue.text, String.toList_ofList, List.cons.injEq]
    split
    next hc =>
      rw [Register.ofName?_eq_some_iff, ← String.toList_inj, String.toList_ofList]
      simp [hc]
    next hc =>
      constructor
      · intro h
        cases h
      · rintro ⟨hmark, -⟩
        exact absurd hmark.symm hc

theorem ofToken?_of_markedName? {t : String} {r : Register} (h : markedName? t = some r) :
    Clue.ofToken? t = some (.register r true) :=
  Clue.ofToken?_eq_some_iff.2 (markedName?_eq_some_iff.1 h)

theorem ofToken?_of_ofName? {t : String} {r : Register} (h : Register.ofName? t = some r) :
    Clue.ofToken? t = some (.register r false) :=
  Clue.ofToken?_eq_some_iff.2 (Register.ofName?_eq_some_iff.1 h)

/-- One word looked at is a search in this word alone. -/
theorem look_eq_scanRegisters (p : Profile) (t : String) :
    p.look t = p.scanRegisters (Clue.ofTokens [t]) := by
  unfold look
  split
  next r hr => simp [Clue.ofTokens, ofToken?_of_markedName? hr, scanRegisters]
  next hmark =>
    split
    next r hr => simp [Clue.ofTokens, ofToken?_of_ofName? hr, scanRegisters]
    next hbare =>
      cases hk : Clue.ofToken? t with
      | none => simp [Clue.ofTokens, hk, scanRegisters]
      | some k =>
        have htext := Clue.ofToken?_eq_some_iff.1 hk
        cases k with
        | mnemonic m => simp [Clue.ofTokens, hk, scanRegisters]
        | register r marked =>
          cases marked with
          | true => cases hmark.symm.trans (markedName?_eq_some_iff.2 htext)
          | false => cases hbare.symm.trans (Register.ofName?_eq_some_iff.2 htext)

/-- **The early stop does not show**: the search comes to what all words come to, one by one. -/
theorem scanRegisters_eq_foldl (p : Profile) (ts : List String) :
    p.scanRegisters (Clue.ofTokens ts) = ts.foldl look p := by
  have hlook (q : Profile) (t : String) :
      q.look t = q.gain (.ofRegisters (Clue.ofTokens [t])) := by
    rw [look_eq_scanRegisters, scanRegisters_eq_gain]
  rw [scanRegisters_eq_gain, foldl_eq_gain hlook rfl Gain.ofRegisters_append]

/-! ## By the names there are -/

theorem any_isMarked_iff {ts : List String} :
    (Clue.ofTokens ts).any Clue.isMarked = true ↔ ∃ r : Register, "%" ++ r.name ∈ ts := by
  rw [List.any_eq_true]
  constructor
  · rintro ⟨k, hk, hmarked⟩
    rw [Clue.mem_ofTokens] at hk
    cases k with
    | mnemonic m => cases hmarked
    | register r marked =>
      have htrue : marked = true := hmarked
      subst htrue
      exact ⟨r, Vocabulary.text_marked r ▸ hk⟩
  · rintro ⟨r, hr⟩
    rw [← Vocabulary.text_marked, ← Clue.mem_ofTokens] at hr
    exact ⟨_, hr, rfl⟩

theorem mem_widths_iff {ts : List String} {w : OperandWidth} :
    w ∈ (Clue.ofTokens ts).filterMap Clue.width? ↔
      ∃ r : Register, (r.name ∈ ts ∨ "%" ++ r.name ∈ ts) ∧ r.width = w := by
  rw [List.mem_filterMap]
  constructor
  · rintro ⟨k, hk, hw⟩
    rw [Clue.mem_ofTokens] at hk
    cases k with
    | mnemonic m => cases hw
    | register r marked =>
      refine ⟨r, ?_, Option.some.inj hw⟩
      cases marked with
      | false => exact .inl hk
      | true => exact .inr (Vocabulary.text_marked r ▸ hk)
  · rintro ⟨r, hbare | hmarked, rfl⟩
    · exact ⟨.register r false, Clue.mem_ofTokens.2 hbare, rfl⟩
    · rw [← Vocabulary.text_marked] at hmarked
      exact ⟨.register r true, Clue.mem_ofTokens.2 hmarked, rfl⟩

/-- **The findings on registers**, wherever they stand. The notation is AT&T if it was before or if
a register name comes with a mark; the width is the greatest of the one before and those of all
names, with a mark or without; nothing else changes. So it would be if every word was looked at. -/
theorem scanRegisters_of_names (p : Profile) (ts : List String) :
    let q := p.scanRegisters (Clue.ofTokens ts)
    (q.dialect = .att ↔ p.dialect = .att ∨ ∃ r : Register, "%" ++ r.name ∈ ts) ∧
      (p.width ≤ q.width ∧
        (∀ r : Register, r.name ∈ ts ∨ "%" ++ r.name ∈ ts → r.width ≤ q.width) ∧
        (q.width = p.width ∨
          ∃ r : Register, (r.name ∈ ts ∨ "%" ++ r.name ∈ ts) ∧ r.width = q.width)) ∧
      q.isa = p.isa ∧ q.vfp = p.vfp ∧ q.x87 = p.x87 ∧ q = ts.foldl look p := by
  intro q
  have hq : q = p.withRegisters (Clue.ofTokens ts) := scanRegisters_eq p _
  refine ⟨?_, ⟨?_, ?_, ?_⟩, ?_, ?_, ?_, scanRegisters_eq_foldl p ts⟩
  · rw [hq, withRegisters, ← any_isMarked_iff]
    simp only
    split
    next h => simp [h]
    next h => simp [h]
  · rw [hq]
    exact OperandWidth.le_widest p.width _
  · intro r hr
    rw [hq]
    exact OperandWidth.le_widest_of_mem (mem_widths_iff.2 ⟨r, hr, rfl⟩) p.width
  · rw [hq, ← mem_widths_iff]
    exact OperandWidth.widest_eq_or_mem p.width _
  · rw [hq]
    rfl
  · rw [hq]
    rfl
  · rw [hq]
    rfl

/-- A name behind the one that the search stops at, and two words that only start with the mark. -/
theorem scanRegisters_of_names_behind_stop :
    let p : Profile := { isa := .arm, vfp := true }
    let ts := ["%", "%%ax", "%rax", "ebx"]
    let q := p.scanRegisters (Clue.ofTokens ts)
    let r : Register := .general .dword .bx
    (r.name ∈ ts ∨ "%" ++ r.name ∈ ts) ∧ r.width ≤ q.width ∧ q.dialect = .att ∧
      q = ts.foldl look p := by
  intro p ts q r
  have hr : r.name ∈ ts ∨ "%" ++ r.name ∈ ts := .inl (by decide)
  have hmarked : ∃ r : Register, "%" ++ r.name ∈ ts := ⟨.general .qword .ax, by decide⟩
  obtain ⟨hdialect, ⟨-, hwidth, -⟩, -, -, -, hall⟩ := scanRegisters_of_names p ts
  exact ⟨hr, hwidth r hr, hdialect.2 (.inr hmarked), hall⟩

end Profile

end AsmDialect
