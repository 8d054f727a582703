import Mathlib.Logic.Relation
import AsmDialect.Session
import AsmDialect.Proofs.Profile.Gains
/-!
# Sessions in any order

Scans and widenings may come in any order and in any portions, although two of the scans break off
by what the profile holds by then: each step adds its gain and takes nothing back, so what counts is
what is gained since the last reset. Main statements: a session comes to one scan of each kind
(`final_eq_atOnce`), steps that are rearranged or portioned out come to the same
(`final_of_rearrange`), and all of it together with what can be seen on the way
(`final_of_steps`).
-/

namespace AsmDialect

namespace Step

/-- Whether a step puts another profile in place. -/
def isReset : Step → Bool
  | reset _ => true
  | _ => false

/-- Whether a step only asks something of the profile. -/
def isQuestion : Step → Bool
  | answer => true
  | report => true
  | format _ => true
  | equals _ => true
  | describe => true
  | _ => false

/-- The words that a step looks through for loads and stores of ARM. -/
def armTokens : Step → List String
  | arm ts => ts
  | _ => []

/-- The words that a step looks through for x86 registers. -/
def registerTokens : Step → List String
  | registers ts => ts
  | _ => []

/-- The words that a step looks through for x87 instructions. -/
def x87Tokens : Step → List String
  | x87 ts => ts
  | _ => []

/-- The width that a step widens to. -/
def width? : Step → Option OperandWidth
  | widen w => some w
  | _ => none

/-- What a step adds to the profile, if it leaves it in place. -/
def gain : Step → Gain
  | arm ts => .ofArm (Clue.ofTokens ts)
  | registers ts => .ofRegisters (Clue.ofTokens ts)
  | x87 ts => .ofX87 (Clue.ofTokens ts)
  | widen w => .ofWidth w
  | _ => {}

theorem gain_eq (step : Step) :
    step.gain =
      (((Gain.ofWidth (OperandWidth.word.widest step.width?.toList)).join
        (.ofArm (Clue.ofTokens step.armTokens))).join
        (.ofRegisters (Clue.ofTokens step.registerTokens))).join
        (.ofX87 (Clue.ofTokens step.x87Tokens)) := by
  have harm : Gain.ofArm (Clue.ofTokens []) = {} := rfl
  have hregisters : Gain.ofRegisters (Clue.ofTokens []) = {} := rfl
  have hx87 : Gain.ofX87 (Clue.ofTokens []) = {} := rfl
  have hwidth : Gain.ofWidth (OperandWidth.word.widest []) = {} := rfl
  have hone (w : OperandWidth) : OperandWidth.word.widest [w] = w := OperandWidth.word_max w
  cases step <;> simp [gain, width?, armTokens, registerTokens, x87Tokens, harm, hregisters, hx87,
    hwidth, hone, Gain.none_join, Gain.join_none]

/-- **One step**: what it does to a profile is to add its gain. -/
theorem run_eq_gain {step : Step} (h : step.isReset = false) (p : Profile) :
    (step.run p).2 = p.gain step.gain := by
  cases step with
  | arm ts => exact p.scanArm_eq_gain _
  | registers ts => exact p.scanRegisters_eq_gain _
  | x87 ts => exact p.scanX87_eq_gain _
  | widen w => exact p.widen_eq_gain w
  | answer => exact p.gain_none.symm
  | report => exact p.gain_none.symm
  | format r => exact p.gain_none.symm
  | equals q => exact p.gain_none.symm
  | describe => exact p.gain_none.symm
  | reset q => cases h

theorem run_of_isQuestion {step : Step} (h : step.isQuestion = true) (p : Profile) :
    (step.run p).2 = p := by
  cases step <;> first | rfl | cases h

/-- A search for ARM code says whether the profile after it is one of ARM code. -/
theorem run_arm (p : Profile) (ts : List String) :
    (arm ts).run p = (.truth (decide (((arm ts).run p).2.isa = .arm)), ((arm ts).run p).2) := by
  simp only [run, Profile.scanArm_eq]

/-- How the work of a step can be shared out among several steps. What only asks is no work. -/
inductive Portions : Step → List Step → Prop
  | arm (tss : List (List String)) : Portions (.arm tss.flatten) (tss.map .arm)
  | registers (tss : List (List String)) : Portions (.registers tss.flatten) (tss.map .registers)
  | x87 (tss : List (List String)) : Portions (.x87 tss.flatten) (tss.map .x87)
  | widen (ws : List OperandWidth) :
      Portions (.widen (OperandWidth.word.widest ws)) (ws.map .widen)
  | question {step : Step} (h : step.isQuestion = true) : Portions step []

end Step

namespace Session

/-- The profile that the last reset puts in place, the given one if there is no reset. -/
def origin (p : Profile) : List Step → Profile
  | [] => p
  | .reset q :: steps => origin q steps
  | _ :: steps => origin p steps

/-- The steps after the last reset. -/
def recent : List Step → List Step
  | [] => []
  | step :: steps => if (step :: steps).any Step.isReset then recent steps else step :: steps

/-- What steps do to a profile that is not reset, with one widening to the widest of all widths and
one scan of each kind for all words. -/
def atOnce (p : Profile) (steps : List Step) : Profile :=
  let widened := p.widen (OperandWidth.word.widest (steps.filterMap Step.width?))
  let searched := (widened.scanArm (Clue.ofTokens (steps.flatMap Step.armTokens))).2
  (searched.scanRegisters (Clue.ofTokens (steps.flatMap Step.registerTokens))).scanX87
    (Clue.ofTokens (steps.flatMap Step.x87Tokens))

/-- What steps add to a profile that is not reset. -/
def gain (steps : List Step) : Gain := steps.foldr (fun step g => step.gain.join g) {}

/-! ## Steps without a reset -/

theorem gain_perm {steps more : List Step} (h : steps.Perm more) : gain steps = gain more := by
  apply h.foldr_eq'
  intro step _ other _ g
  ac_rfl

/-- **Many steps**: what they come to is to add their gains. -/
theorem final_eq_gain {steps : List Step} (h : ∀ step ∈ steps, step.isReset = false)
    (p : Profile) : final p steps = p.gain (gain steps) := by
  induction steps generalizing p with
  | nil => exact p.gain_none.symm
  | cons step steps ih =>
    have hstep := Step.run_eq_gain (h step List.mem_cons_self) p
    have hsteps := ih (fun s hs => h s (List.mem_cons_of_mem step hs)) (step.run p).2
    rw [hstep, Profile.gain_gain] at hsteps
    rw [final, List.foldl_cons, hstep]
    exact hsteps

/-- The gain of steps is that of all their words and widths. -/
theorem gain_eq (steps : List Step) :
    gain steps =
      (((Gain.ofWidth (OperandWidth.word.widest (steps.filterMap Step.width?))).join
        (.ofArm (Clue.ofTokens (steps.flatMap Step.armTokens)))).join
        (.ofRegisters (Clue.ofTokens (steps.flatMap Step.registerTokens)))).join
        (.ofX87 (Clue.ofTokens (steps.flatMap Step.x87Tokens))) := by
  induction steps with
  | nil => rfl
  | cons step steps ih =>
    have hwidth : (step :: steps).filterMap Step.width? =
        step.width?.toList ++ steps.filterMap Step.width? := by
      cases h : step.width? <;> simp [h]
    have hgain : gain (step :: steps) = step.gain.join (gain steps) := rfl
    rw [hgain, ih, step.gain_eq, hwidth, Profile.widest_append, Gain.ofWidth_max]
    simp only [List.flatMap_cons, Clue.ofTokens_append, Gain.ofArm_append, Gain.ofRegisters_append,
      Gain.ofX87_append]
    ac_rfl

theorem atOnce_eq_gain (p : Profile) (steps : List Step) :
    atOnce p steps = p.gain (gain steps) := by
  rw [gain_eq, atOnce, Profile.widen_eq_gain, Profile.scanArm_eq_gain, Profile.gain_gain,
    Profile.scanRegisters_eq_gain, Profile.gain_gain, Profile.scanX87_eq_gain, Profile.gain_gain]

/-! ## Resets -/

theorem final_append (p : Profile) (steps more : List Step) :
    final p (steps ++ more) = final (final p steps) more :=
  List.foldl_append

theorem origin_of_no_reset {steps : List Step} (h : steps.any Step.isReset = false) (p : Profile) :
    origin p steps = p := by
  induction steps with
  | nil => rfl
  | cons step steps ih =>
    rw [List.any_cons, Bool.or_eq_false_iff] at h
    cases step with
    | reset q => cases h.1
    | _ => exact ih h.2

/-- What was there before does not matter where there is a reset. -/
theorem origin_of_reset {steps : List Step} (h : steps.any Step.isReset = true) (p q : Profile) :
    origin p steps = origin q steps := by
  induction steps with
  | nil => cases h
  | cons step steps ih =>
    cases step with
    | reset r => rfl
    | _ => exact ih h

/-- **All steps at once**: a session comes to one widening and one scan of each kind, done to the
profile of the last reset with the words of the steps since. -/
theorem final_eq_atOnce (p : Profile) (steps : List Step) :
    final p steps = atOnce (origin p steps) (recent steps) := by
  induction steps generalizing p with
  | nil => exact p.gain_none.symm.trans (atOnce_eq_gain p []).symm
  | cons step steps ih =>
    cases h : (step :: steps).any Step.isReset with
    | false =>
      have hr : ∀ s ∈ step :: steps, s.isReset = false := by
        simpa using h
      rw [origin_of_no_reset h, recent, if_neg (by simp [h]), atOnce_eq_gain, final_eq_gain hr]
    | true =>
      have hfinal : final p (step :: steps) = final (step.run p).2 steps := rfl
      rw [hfinal, ih, recent, if_pos h]
      cases step with
      | reset q => rfl
      | _ => exact congrArg (atOnce · (recent steps)) (origin_of_reset h _ p)

/-! ## Rearrangement -/

/-- One rearrangement of a session. -/
inductive Rearrange : List Step → List Step → Prop
  /-- Steps change places. There is no reset among them. -/
  | permuted (l r : List Step) {steps more : List Step} (h : steps.Perm more)
      (hr : ∀ step ∈ steps, step.isReset = false) : Rearrange (l ++ steps ++ r) (l ++ more ++ r)
  /-- The work of a step is shared out among several. -/
  | portioned (l r : List Step) {step : Step} {steps : List Step} (h : step.Portions steps) :
      Rearrange (l ++ step :: r) (l ++ steps ++ r)

/-- Scans of one kind for some words each gain what one scan for all of the words gains. -/
theorem gain_map {f : List String → Step} {g : List Clue → Gain}
    (hf : ∀ ts, (f ts).gain = g (Clue.ofTokens ts)) (hnil : g [] = {})
    (happend : ∀ ks ls, g (ks ++ ls) = (g ks).join (g ls)) (tss : List (List String)) :
    gain (tss.map f) = g (Clue.ofTokens tss.flatten) := by
  induction tss with
  | nil => exact hnil.symm
  | cons ts tss ih =>
    have hcons : gain ((ts :: tss).map f) = (f ts).gain.join (gain (tss.map f)) := rfl
    rw [hcons, ih, hf, List.flatten_cons, Clue.ofTokens_append, happend]

theorem gain_of_portions {step : Step} {steps : List Step} (h : step.Portions steps) :
    gain steps = step.gain := by
  cases h with
  | arm tss => exact gain_map (fun _ => rfl) rfl Gain.ofArm_append tss
  | registers tss => exact gain_map (fun _ => rfl) rfl Gain.ofRegisters_append tss
  | x87 tss => exact gain_map (fun _ => rfl) rfl Gain.ofX87_append tss
  | widen ws =>
    induction ws with
    | nil => rfl
    | cons w ws ih =>
      have hcons : gain ((w :: ws).map .widen) = (Gain.ofWidth w).join (gain (ws.map .widen)) := rfl
      rw [hcons, ih]
      simp only [Step.gain]
      rw [Profile.widest_cons, Gain.ofWidth_max]
  | question h => cases step <;> first | rfl | cases h

theorem no_reset_of_portions {step : Step} {steps : List Step} (h : step.Portions steps) :
    step.isReset = false ∧ ∀ s ∈ steps, s.isReset = false := by
  cases h with
  | question h => cases step <;> first | exact ⟨rfl, by simp⟩ | cases h
  | _ =>
    refine ⟨rfl, fun s hs => ?_⟩
    obtain ⟨_, -, rfl⟩ := List.mem_map.1 hs
    rfl

/-- **A rearranged session** comes to the same. -/
theorem final_of_rearrange {steps more : List Step} (h : Rearrange steps more) (p : Profile) :
    final p steps = final p more := by
  cases h with
  | @permuted l r steps more h hr =>
    have hr' : ∀ step ∈ more, step.isReset = false := fun step hs => hr step (h.mem_iff.2 hs)
    simp only [final_append]
    rw [final_eq_gain hr, final_eq_gain hr', gain_perm h]
  | portioned l r h =>
    obtain ⟨hstep, hsteps⟩ := no_reset_of_portions h
    rw [List.append_assoc]
    simp only [final_append]
    rw [final_eq_gain hsteps, gain_of_portions h, ← Step.run_eq_gain hstep]
    rfl

theorem final_of_rearrangements {steps more : List Step} (h : Relation.EqvGen Rearrange steps more)
    (p : Profile) : final p steps = final p more := by
  induction h with
  | rel steps more h => exact final_of_rearrange h p
  | refl steps => rfl
  | symm steps more _ ih => exact ih.symm
  | trans steps others more _ _ ih ih' => exact ih.trans ih'

/-! ## On the way -/

/-- The reply to a step and the profile after it are those of the step taken where the steps before
it lead to. -/
theorem run_getElem? (p : Profile) (before : List Step) (step : Step) (after : List Step) :
    (run p (before ++ step :: after))[before.length]? = some (step.run (final p before)) := by
  have hlength := length_run p before
  rw [run_append, List.getElem?_append_right (Nat.le_of_eq hlength), hlength, Nat.sub_self]
  rfl

/-- Between resets nothing goes back. -/
theorem grows_of_no_reset {between : List Step} (h : ∀ step ∈ between, step.isReset = false)
    (p : Profile) (before : List Step) :
    (final p before).Grows (final p (before ++ between)) := by
  rw [final_append, final_eq_gain h]
  exact Profile.grows_gain _ _

/-- The reply to a search for ARM code. -/
theorem run_getElem?_arm (p : Profile) (before : List Step) (ts : List String) (after : List Step) :
    (run p (before ++ .arm ts :: after))[before.length]? =
      some (.truth (decide ((final p (before ++ [.arm ts])).isa = .arm)),
        final p (before ++ [.arm ts])) := by
  rw [run_getElem?, Step.run_arm, final_append]
  rfl

/-- Once ARM code is found, each further search says so up to the next reset. -/
theorem run_getElem?_arm_again {p q : Profile} {before between after : List Step}
    {ts us : List String} (hr : ∀ step ∈ between, step.isReset = false)
    (h : (run p (before ++ .arm ts :: (between ++ .arm us :: after)))[before.length]? =
      some (.truth true, q)) :
    ∃ q', (run p (before ++ .arm ts :: (between ++ .arm us :: after)))[before.length + 1 +
      between.length]? = some (.truth true, q') := by
  have hr' : ∀ step ∈ between ++ [.arm us], step.isReset = false := by
    intro step hs
    rcases List.mem_append.1 hs with hs | hs
    · exact hr step hs
    · rw [List.mem_singleton.1 hs]
      rfl
  have hsplit : before ++ .arm ts :: (between ++ .arm us :: after) =
      (before ++ .arm ts :: between) ++ .arm us :: after := by
    simp
  have hlength : before.length + 1 + between.length = (before ++ .arm ts :: between).length := by
    simp only [List.length_append, List.length_cons]
    omega
  have hlater : before ++ .arm ts :: between ++ [.arm us] =
      before ++ [.arm ts] ++ (between ++ [.arm us]) := by
    simp
  have harm : (final p (before ++ [.arm ts])).isa = .arm := by
    rw [run_getElem?_arm] at h
    simpa using congrArg (Option.map Prod.fst) h
  have hgrows := grows_of_no_reset hr' p (before ++ [.arm ts])
  rw [hsplit, hlength, run_getElem?_arm, hlater, decide_eq_true (hgrows.isa harm)]
  exact ⟨_, rfl⟩

/-- **Sessions in any order and any portions.** A session comes to one widening and one scan of each
kind for what came since the last reset. So it comes to the same when steps between resets change
places, when the work of a step is shared out, and when questions are left out or put in, which do
nothing even if they are refused. On the way nothing goes back between resets, each search for ARM
code says whether the code is ARM by then, and once one has said so all do up to the next reset. -/
theorem final_of_steps (p : Profile) (steps : List Step) :
    final p steps = atOnce (origin p steps) (recent steps) ∧
      (∀ more, Relation.EqvGen Rearrange steps more → final p more = final p steps) ∧
      (∀ (q : Profile) (step : Step), step.isQuestion = true → (step.run q).2 = q) ∧
      (∀ before between after, steps = before ++ between ++ after →
        (∀ step ∈ between, step.isReset = false) →
        (final p before).Grows (final p (before ++ between))) ∧
      (∀ before ts after, steps = before ++ .arm ts :: after →
        (run p steps)[before.length]? =
          some (.truth (decide ((final p (before ++ [.arm ts])).isa = .arm)),
            final p (before ++ [.arm ts]))) ∧
      ∀ before ts between us after q, steps = before ++ .arm ts :: (between ++ .arm us :: after) →
        (∀ step ∈ between, step.isReset = false) →
        (run p steps)[before.length]? = some (.truth true, q) →
        ∃ q', (run p steps)[before.length + 1 + between.length]? = some (.truth true, q') := by
  refine ⟨final_eq_atOnce p steps, ?_, ?_, ?_, ?_, ?_⟩
  · intro more h
    exact (final_of_rearrangements h p).symm
  · intro q step h
    exact Step.run_of_isQuestion h q
  · rintro before between after - hr
    exact grows_of_no_reset hr p before
  · rintro before ts after rfl
    exact run_getElem?_arm p before ts after
  · rintro before ts between us after q rfl hr h
    exact run_getElem?_arm_again hr h

/-- Registers and VFP code after a reset, in another order and in portions, with a format between
them that does not exist. -/
theorem final_of_steps_in_two_orders :
    let p : Profile := { isa := .arm, x87 := true }
    let steps : List Step := [.reset {}, .registers ["%rax", "eax"], .arm ["vldr"],
      .format (.other .none), .arm ["mov"]]
    let more : List Step := [.reset {}, .arm ["vldr"], .registers ["%rax"], .registers ["eax"],
      .arm ["mov"]]
    let between : List Step := [.format (.other .none)]
    Relation.EqvGen Rearrange steps more ∧ (∀ step ∈ between, step.isReset = false) ∧
      (∀ step ∈ between, step.isQuestion = true) ∧
      final p more = final p steps ∧
      ((Step.format (.other .none)).run p).2 = p ∧
      (final p (steps.take 3)).Grows (final p (steps.take 3 ++ between)) ∧
      (run p steps)[2]? = some (.truth true, final p (steps.take 3)) ∧
      ∃ q, (run p steps)[4]? = some (.truth true, q) := by
  intro p steps more between
  have hr : ∀ step ∈ between, step.isReset = false := List.forall_mem_singleton.2 rfl
  have hq : ∀ step ∈ between, step.isQuestion = true := List.forall_mem_singleton.2 rfl
  have hswap : Rearrange steps [.reset {}, .arm ["vldr"], .registers ["%rax", "eax"],
      .format (.other .none), .arm ["mov"]] :=
    .permuted [.reset {}] [.format (.other .none), .arm ["mov"]] (.swap _ _ []) (by decide)
  have hshare : Rearrange [.reset {}, .arm ["vldr"], .registers ["%rax", "eax"],
      .format (.other .none), .arm ["mov"]] [.reset {}, .arm ["vldr"], .registers ["%rax"],
      .registers ["eax"], .format (.other .none), .arm ["mov"]] :=
    .portioned [.reset {}, .arm ["vldr"]] [.format (.other .none), .arm ["mov"]]
      (.registers [["%rax"], ["eax"]])
  have hdrop : Rearrange [.reset {}, .arm ["vldr"], .registers ["%rax"], .registers ["eax"],
      .format (.other .none), .arm ["mov"]] more :=
    .portioned [.reset {}, .arm ["vldr"], .registers ["%rax"], .registers ["eax"]] [.arm ["mov"]]
      (.question rfl)
  have h : Relation.EqvGen Rearrange steps more :=
    .trans _ _ _ (.rel _ _ hswap) (.trans _ _ _ (.rel _ _ hshare) (.rel _ _ hdrop))
  have hfound : (run p steps)[2]? = some (.truth true, final p (steps.take 3)) := by decide
  obtain ⟨-, horder, hask, hgrows, -, hagain⟩ := final_of_steps p steps
  exact ⟨h, hr, hq, horder more h, hask p _ rfl, hgrows _ between [.arm ["mov"]] rfl hr, hfound,
    hagain (steps.take 2) ["vldr"] between ["mov"] [] _ rfl hr hfound⟩

end Session

end AsmDialect
