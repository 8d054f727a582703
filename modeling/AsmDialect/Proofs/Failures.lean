import AsmDialect.Proofs.Ranks
import AsmDialect.Proofs.Runs
/-!
# How a run fails

Three kinds of thing can keep a run from writing: a block size that asks for nothing, a fault of the
stream that is not the device's, and a request for a form that does not exist. Each is told by
itself (`RunObstacle`), without regard to the others and to a device that fails. A run fails with
the first of those that are there, and writes all it has to write or nothing at all. Main
statements: the four things that a run can come to (`comesTo_run`), that it fails with the first
obstacle (`failure_eq_some_iff_isFirst`), and both together with what has been done by then
(`run_all_or_nothing`).
-/

namespace AsmDialect

/-- What stands in the way of a run, each with the failure that it alone would lead to. -/
inductive RunObstacle (o : RunOptions) (s : Stream) : RunFailure → Prop
  | blockSize (h : o.blockSize ≤ 0) : RunObstacle o s (.blockSize ⟨o.blockSize⟩)
  /-- The stream raises a fault before it ends, and not one of the device. -/
  | stream {kind : FaultKind} {message : String} (h : s.Raises o.blockSize.toNat kind message) :
      RunObstacle o s (.stream kind message)
  /-- A bare value is asked for instead of a form. -/
  | format {value : Scalar} (h : o.format = .other value) : RunObstacle o s (.format ⟨value⟩)

/-- The rank of a failure among those of a run. -/
def RunFailure.rank : RunFailure → Nat
  | blockSize _ => 1
  | stream .. => 2
  | format _ => 3

/-- What a run shows of its log once a source is delivered to it. -/
def RunOptions.logOf (o : RunOptions) (d : Source) (e : Ending) : Log :=
  e.notice d.length o.verbosity ++ d.log.visible o.verbosity

/-- What a run comes to, by its options and what the stream does. -/
inductive ComesTo (o : RunOptions) (s : Stream) : Outcome RunFailure → Prop
  | refused (hn : o.blockSize ≤ 0) : ComesTo o s (.failed [] (.blockSize ⟨o.blockSize⟩))
  | raised {kind : FaultKind} {message : String} (hn : 0 < o.blockSize)
      (h : s.Raises o.blockSize.toNat kind message) :
      ComesTo o s (.failed [] (.stream kind message))
  | formless {d : Source} {e : Ending} {value : Scalar} (hn : 0 < o.blockSize)
      (h : s.Delivers o.blockSize.toNat d e) (hf : o.format = .other value) :
      ComesTo o s (.failed (o.logOf d e) (.format ⟨value⟩))
  | written {d : Source} {e : Ending} {f : OutputFormat} (hn : 0 < o.blockSize)
      (h : s.Delivers o.blockSize.toNat d e) (hf : o.format = .known f) :
      ComesTo o s ⟨d.profile.inFormat f ++ "\n", o.logOf d e, none⟩

variable {o : RunOptions} {s : Stream}

/-! ## What a run comes to -/

theorem run_of_not_positive (hn : o.blockSize ≤ 0) (s : Stream) :
    run o s = .failed [] (.blockSize ⟨o.blockSize⟩) := by
  rw [run, Stream.readAll, dif_neg (by omega)]

/-- A run that is asked for no form finds out when it has read the source to its end, however that
came. -/
theorem run_of_other {v n : Int} {value : Scalar} (hn : 0 < n) {d : Source} {e : Ending}
    (h : s.Delivers n.toNat d e) :
    run ⟨.other value, n, v⟩ s =
      .failed (e.notice d.length v ++ d.log.visible v) (.format ⟨value⟩) := by
  have he : Stream.IsDelivered e := (Stream.drain_of_delivers (n := n.toNat) (by omega) h).2.2
  obtain ⟨r, rfl, rfl, hrun⟩ := run_of_delivers (o := ⟨.other value, n, v⟩) hn h
  rw [hrun, ← visible_log_of_delivered he]
  rfl

/-- **A run comes to one of four things.** -/
theorem comesTo_run (o : RunOptions) (s : Stream) : ComesTo o s (run o s) := by
  by_cases hn : 0 < o.blockSize
  · rcases Stream.delivers_or_raises (show 0 < o.blockSize.toNat by omega) s with
      ⟨d, e, h⟩ | ⟨kind, message, h⟩
    · obtain ⟨f, n, v⟩ := o
      cases f with
      | known f =>
        rw [run_eq_of_delivers hn h]
        exact .written hn h rfl
      | other value =>
        rw [run_of_other hn h]
        exact .formless hn h rfl
    · rw [run_of_raises hn h]
      exact .raised hn h
  · rw [run_of_not_positive (by omega)]
    exact .refused (by omega)

/-! ## The first obstacle -/

/-- Once a source is delivered, the form that is asked for is all that can stand in the way. -/
theorem format_of_obstacle (hn : 0 < o.blockSize) {d : Source} {ending : Ending}
    (hd : s.Delivers o.blockSize.toNat d ending) {e : RunFailure} (h : RunObstacle o s e) :
    ∃ value, o.format = .other value ∧ e = .format ⟨value⟩ := by
  cases h with
  | blockSize hsize => omega
  | stream hr => exact absurd hd (Stream.not_delivers_of_raises (by omega) hr d ending)
  | format hf => exact ⟨_, hf, rfl⟩

namespace ComesTo

variable {out : Outcome RunFailure}

theorem failure_of_isFirst (h : ComesTo o s out) {e : RunFailure}
    (he : IsFirst (RunObstacle o s) RunFailure.rank e) : out.failure = some e := by
  obtain ⟨hob, hle⟩ := he
  cases h with
  | refused hn =>
    have hrank : e.rank ≤ 1 := hle _ (.blockSize hn)
    cases hob with
    | blockSize _ => rfl
    | _ => simp [RunFailure.rank] at hrank
  | raised hn hr =>
    have hrank : e.rank ≤ 2 := hle _ (.stream hr)
    cases hob with
    | blockSize hsize => omega
    | stream hr' =>
      obtain ⟨rfl, rfl⟩ := Stream.raises_unique (by omega) hr hr'
      rfl
    | format _ => simp [RunFailure.rank] at hrank
  | formless hn hd hf =>
    obtain ⟨value, hf', rfl⟩ := format_of_obstacle hn hd hob
    cases hf.symm.trans hf'
    rfl
  | written hn hd hf =>
    obtain ⟨value, hf', -⟩ := format_of_obstacle hn hd hob
    cases hf.symm.trans hf'

theorem failure_eq_none (h : ComesTo o s out) (hclear : ∀ e, ¬ RunObstacle o s e) :
    out.failure = none := by
  cases h with
  | refused hn => exact absurd (.blockSize hn) (hclear _)
  | raised hn hr => exact absurd (.stream hr) (hclear _)
  | formless hn hd hf => exact absurd (.format hf) (hclear _)
  | written => rfl

/-! ## What has been done by then -/

theorem nothing_written (h : ComesTo o s out) {e : RunFailure} (he : out.failure = some e) :
    out.written = "" := by
  cases h with
  | written => cases he
  | _ => rfl

theorem all_written (h : ComesTo o s out) (hnone : out.failure = none) :
    ∃ f d e, o.format = .known f ∧ s.Delivers o.blockSize.toNat d e ∧
      out.written = d.profile.inFormat f ++ "\n" := by
  cases h with
  | written hn hd hf => exact ⟨_, _, _, hf, hd, rfl⟩
  | _ => cases hnone

/-- The form that is asked for is looked at when the source is read to its end and surveyed. -/
theorem exists_reading (h : ComesTo o s out) {e : UnknownFormat}
    (he : out.failure = some (.format e)) :
    ∃ r, s.readAll o.blockSize = .ok r ∧ s.Delivers o.blockSize.toNat r.bytes r.ending ∧
      out.log = o.logOf r.bytes r.ending := by
  cases h with
  | formless hn hd hf =>
    have hpos : 0 < o.blockSize.toNat := by omega
    obtain ⟨rfl, rfl, -⟩ := Stream.drain_of_delivers hpos hd
    exact ⟨s.drain _ hpos, dif_pos hn, hd, rfl⟩
  | refused => cases he
  | raised => cases he
  | written => cases he

end ComesTo

/-- **The first obstacle** is what a run fails with, and it fails with nothing else. -/
theorem failure_eq_some_iff_isFirst {e : RunFailure} :
    (run o s).failure = some e ↔ IsFirst (RunObstacle o s) RunFailure.rank e :=
  eq_some_iff_isFirst (fun _ => (comesTo_run o s).failure_of_isFirst)
    (comesTo_run o s).failure_eq_none

theorem failure_eq_none_iff_no_obstacle :
    (run o s).failure = none ↔ ∀ e, ¬ RunObstacle o s e :=
  eq_none_iff_forall_not (fun _ => (comesTo_run o s).failure_of_isFirst)
    (comesTo_run o s).failure_eq_none

/-- **All or nothing.** A run fails if there is an obstacle, with the first one there is: a block
size that asks for nothing, then a fault of the stream, then a request for no form. Nothing has been
written then. Otherwise the profile of what was delivered is written in the form that is asked for,
with a line end after it. A block size that asks for nothing is found out whatever the stream, so
nothing is read; a request for no form is found out when the source has been read to its end, which
may be that the device failed. -/
theorem run_all_or_nothing (o : RunOptions) (s : Stream) :
    (∀ e, (run o s).failure = some e ↔ IsFirst (RunObstacle o s) RunFailure.rank e) ∧
      ((run o s).failure = none ↔ ∀ e, ¬ RunObstacle o s e) ∧
      (∀ e, (run o s).failure = some e → (run o s).written = "") ∧
      ((run o s).failure = none →
        ∃ f d e, o.format = .known f ∧ s.Delivers o.blockSize.toNat d e ∧
          (run o s).written = d.profile.inFormat f ++ "\n") ∧
      (∀ e, (run o s).failure = some (.blockSize e) →
        ∀ t : Stream, t.readAll o.blockSize = .error e ∧ run o t = run o s) ∧
      ∀ e, (run o s).failure = some (.format e) →
        ∃ r, s.readAll o.blockSize = .ok r ∧ s.Delivers o.blockSize.toNat r.bytes r.ending ∧
          (run o s).log = o.logOf r.bytes r.ending := by
  have hcomes := comesTo_run o s
  refine ⟨fun e => failure_eq_some_iff_isFirst, failure_eq_none_iff_no_obstacle,
    fun e => hcomes.nothing_written, hcomes.all_written, ?_, fun e => hcomes.exists_reading⟩
  intro e he t
  cases (failure_eq_some_iff_isFirst.1 he).holds with
  | blockSize hn =>
    rw [run_of_not_positive hn, run_of_not_positive hn]
    exact ⟨dif_neg (by omega), rfl⟩

/-- The code of a form is no form, which is found out behind a failing device. A fault of the stream
comes before that, and a block size of zero before both. -/
theorem run_all_or_nothing_in_order :
    let broken : Stream := .script [.block (Source.ofText "ldr"), .fault .device]
    let raising : Stream := .script [.block (Source.ofText "ldr"), .fault (.other .value "closed")]
    let code : FormatRequest := .other (.text "answer")
    (run ⟨code, 0, 0⟩ raising).failure = some (.blockSize ⟨0⟩) ∧
      (run ⟨code, 2, 0⟩ raising).failure = some (.stream .value "closed") ∧
      (run ⟨code, 2, 0⟩ raising).written = "" ∧
      (run ⟨code, 2, 0⟩ broken).failure = some (.format ⟨.text "answer"⟩) ∧
      (∃ r, broken.readAll 2 = .ok r ∧
        (run ⟨code, 2, 0⟩ broken).log = RunOptions.logOf ⟨code, 2, 0⟩ r.bytes r.ending) ∧
      ∃ d ending, broken.Delivers 2 d ending ∧
        (run ⟨.known .report, 2, 0⟩ broken).written = d.profile.inFormat .report ++ "\n" := by
  intro broken raising code
  have hd : broken.Delivers 2 (Source.ofText "ldr" ++ []) .broken :=
    .block rfl (by decide) (.broken rfl)
  have hr : raising.Raises 2 .value "closed" := .later rfl (by decide) (.here rfl)
  have hsize : IsFirst (RunObstacle ⟨code, 0, 0⟩ raising) RunFailure.rank (.blockSize ⟨0⟩) := by
    refine ⟨.blockSize (by decide), fun e _ => ?_⟩
    cases e <;> simp [RunFailure.rank]
  have hstream : IsFirst (RunObstacle ⟨code, 2, 0⟩ raising) RunFailure.rank
      (.stream .value "closed") := by
    refine ⟨.stream hr, fun e he => ?_⟩
    cases he with
    | blockSize h => exact absurd h (by decide)
    | _ => simp [RunFailure.rank]
  have hformat : IsFirst (RunObstacle ⟨code, 2, 0⟩ broken) RunFailure.rank
      (.format ⟨.text "answer"⟩) := by
    refine ⟨.format rfl, fun e he => ?_⟩
    obtain ⟨value, -, rfl⟩ := format_of_obstacle (o := ⟨code, 2, 0⟩) (by decide) hd he
    simp [RunFailure.rank]
  have hnone (e : RunFailure) : ¬ RunObstacle ⟨.known .report, 2, 0⟩ broken e := by
    intro he
    obtain ⟨value, hf, -⟩ :=
      format_of_obstacle (o := ⟨.known .report, 2, 0⟩) (by decide) hd he
    cases hf
  obtain ⟨hfirst₀, -⟩ := run_all_or_nothing ⟨code, 0, 0⟩ raising
  obtain ⟨hfirst, -, hnothing, -⟩ := run_all_or_nothing ⟨code, 2, 0⟩ raising
  obtain ⟨hlast, -, -, -, -, hread⟩ := run_all_or_nothing ⟨code, 2, 0⟩ broken
  obtain ⟨-, hclear, -, hall, -⟩ := run_all_or_nothing ⟨.known .report, 2, 0⟩ broken
  have hfailure := (hfirst _).2 hstream
  have hformless := (hlast _).2 hformat
  obtain ⟨r, hok, -, hlog⟩ := hread _ hformless
  obtain ⟨f, d, ending, hf, hdelivers, hwritten⟩ := hall (hclear.2 hnone)
  cases hf
  exact ⟨(hfirst₀ _).2 hsize, hfailure, hnothing _ hfailure, hformless, ⟨r, hok, hlog⟩, d, ending,
    hdelivers, hwritten⟩

end AsmDialect
