import AsmDialect.Profile.Join
/-!
# Gains

What a scan or a widening adds to a profile, told without the profile it is added to. Two gains are
joined finding by finding, and nothing that is gained is ever lost. Main statements: scans come to
gains (`scanArm_eq_gain`, `scanRegisters_eq_gain`, `scanX87_eq_gain`, `widen_eq_gain`), one gain
after the other comes to their join (`gain_gain`), so a search can be made word by word
(`foldl_eq_gain`), and a profile grows by a gain (`grows_gain`).
-/

namespace AsmDialect

theorem OperandWidth.max_word (w : OperandWidth) : max w .word = w := by
  rw [max_comm, word_max]

/-- What is added to a profile. -/
structure Gain where
  arm : Bool := false
  vfp : Bool := false
  att : Bool := false
  width : OperandWidth := .word
  x87 : Bool := false
deriving DecidableEq, Repr

namespace Gain

/-- Both of two gains. -/
def join (g h : Gain) : Gain :=
  ⟨g.arm || h.arm, g.vfp || h.vfp, g.att || h.att, max g.width h.width, g.x87 || h.x87⟩

theorem none_join (g : Gain) : join {} g = g := by
  simp [join, OperandWidth.word_max]

theorem join_comm (g h : Gain) : g.join h = h.join g := by
  simp [join, Bool.or_comm, OperandWidth.max_comm]

theorem join_assoc (g h i : Gain) : (g.join h).join i = g.join (h.join i) := by
  simp [join, Bool.or_assoc, OperandWidth.max_assoc]

theorem join_none (g : Gain) : join g {} = g := by
  rw [join_comm, none_join]

instance : Std.Commutative join := ⟨join_comm⟩

instance : Std.Associative join := ⟨join_assoc⟩

/-- The gain of looking for loads and stores of ARM among clues. -/
def ofArm (ks : List Clue) : Gain :=
  { arm := ks.any Clue.tellsArm, vfp := ks.any (Clue.isOf .vfp) }

/-- The gain of looking for registers among clues. -/
def ofRegisters (ks : List Clue) : Gain :=
  { att := ks.any Clue.isMarked, width := OperandWidth.word.widest (ks.filterMap Clue.width?) }

/-- The gain of looking for instructions of the x87 among clues. -/
def ofX87 (ks : List Clue) : Gain := { x87 := ks.any (Clue.isOf .x87) }

/-- The gain of a widening. -/
def ofWidth (w : OperandWidth) : Gain := { width := w }

/-! ## Gains of clues in two parts -/

theorem ofArm_append (ks ls : List Clue) : ofArm (ks ++ ls) = (ofArm ks).join (ofArm ls) := by
  simp only [ofArm, join, List.any_append]
  rfl

theorem ofRegisters_append (ks ls : List Clue) :
    ofRegisters (ks ++ ls) = (ofRegisters ks).join (ofRegisters ls) := by
  simp only [ofRegisters, join, List.any_append, List.filterMap_append, Profile.widest_append]
  rfl

theorem ofX87_append (ks ls : List Clue) : ofX87 (ks ++ ls) = (ofX87 ks).join (ofX87 ls) := by
  simp only [ofX87, join, List.any_append]
  rfl

theorem ofWidth_max (v w : OperandWidth) : ofWidth (max v w) = (ofWidth v).join (ofWidth w) :=
  rfl

end Gain

namespace Profile

/-- The profile with a gain added to it. -/
def gain (p : Profile) (g : Gain) : Profile :=
  { isa := if g.arm then .arm else p.isa
    vfp := p.vfp || g.vfp
    dialect := if g.att then .att else p.dialect
    width := max p.width g.width
    x87 := p.x87 || g.x87 }

theorem gain_none (p : Profile) : p.gain {} = p := by
  simp [gain, OperandWidth.max_word]

/-- **One gain after the other** comes to both at once. -/
theorem gain_gain (p : Profile) (g h : Gain) : (p.gain g).gain h = p.gain (g.join h) := by
  rcases g with ⟨garm, gvfp, gatt, gwidth, gx87⟩
  rcases h with ⟨harm, hvfp, hatt, hwidth, hx87⟩
  simp only [gain, Gain.join, OperandWidth.max_assoc, Bool.or_assoc]
  cases garm <;> cases harm <;> cases gatt <;> cases hatt <;> rfl

/-! ## Scans as gains -/

theorem scanArm_eq_gain (p : Profile) (ks : List Clue) :
    (p.scanArm ks).2 = p.gain (.ofArm ks) := by
  rw [scanArm_eq]
  simp [withArm, gain, Gain.ofArm, OperandWidth.max_word]

theorem scanRegisters_eq_gain (p : Profile) (ks : List Clue) :
    p.scanRegisters ks = p.gain (.ofRegisters ks) := by
  have hw : p.width.widest (ks.filterMap Clue.width?) =
      max p.width (OperandWidth.word.widest (ks.filterMap Clue.width?)) :=
    widest_append p.width [] _
  rw [scanRegisters_eq]
  simp [withRegisters, gain, Gain.ofRegisters, hw]

theorem scanX87_eq_gain (p : Profile) (ks : List Clue) : p.scanX87 ks = p.gain (.ofX87 ks) := by
  unfold scanX87
  cases h : ks.any (Clue.isOf .x87) <;> simp [gain, Gain.ofX87, h, OperandWidth.max_word]

theorem widen_eq_gain (p : Profile) (w : OperandWidth) : p.widen w = p.gain (.ofWidth w) := by
  rw [widen_eq]
  simp [gain, Gain.ofWidth]

/-! ## Word by word -/

/-- **One word after the other**: where looking at a word adds the gain of its clue, if it gives
any, looking at all words adds the gain of all clues. -/
theorem foldl_eq_gain {look : Profile → String → Profile} {g : List Clue → Gain}
    (hlook : ∀ p t, look p t = p.gain (g (Clue.ofTokens [t]))) (hnil : g [] = {})
    (happend : ∀ ks ls, g (ks ++ ls) = (g ks).join (g ls)) (p : Profile) (ts : List String) :
    ts.foldl look p = p.gain (g (Clue.ofTokens ts)) := by
  induction ts generalizing p with
  | nil =>
    have hnone : Clue.ofTokens [] = [] := rfl
    rw [List.foldl_nil, hnone, hnil, gain_none]
  | cons t ts ih =>
    have hcons : Clue.ofTokens (t :: ts) = Clue.ofTokens [t] ++ Clue.ofTokens ts :=
      Clue.ofTokens_append [t] ts
    rw [List.foldl_cons, ih, hlook, gain_gain, hcons, happend]

/-! ## Growth -/

/-- Whether no field of a profile has gone back in another one. -/
structure Grows (p q : Profile) : Prop where
  isa : p.isa = .arm → q.isa = .arm
  vfp : p.vfp = true → q.vfp = true
  dialect : p.dialect = .att → q.dialect = .att
  width : p.width ≤ q.width
  x87 : p.x87 = true → q.x87 = true

/-- **A profile grows by a gain.** -/
theorem grows_gain (p : Profile) (g : Gain) : p.Grows (p.gain g) where
  isa h := by
    simp only [gain, h]
    exact ite_self _
  vfp h := by simp [gain, h]
  dialect h := by
    simp only [gain, h]
    exact ite_self _
  width := by
    simp only [gain]
    cases p.width <;> cases g.width <;> decide
  x87 h := by simp [gain, h]

end Profile

end AsmDialect
