import AsmDialect.Proofs.Runs
import AsmDialect.Proofs.Source.Layouts
import AsmDialect.Proofs.Source.NormalForm
/-!
# Runs at different verbosities

A run has one log, and the verbosity is for choosing which levels of it are shown. It chooses nothing
else: what a run writes and what it fails with are the same at every verbosity, on any stream
whatever (`exists_log_of_run`). The log of a run on a source that is delivered to it is written out
as text in `Source.account`. Main statements: what is shown is the part of the account that is of the
levels shown (`line_log_of_delivers`), the counts in the account go together (`length_tokens`,
`length_prepared_le`), and all of it together (`run_at_each_verbosity`).
-/

namespace AsmDialect

/-- Whether entries of a level are shown at a verbosity. -/
def Level.isShownAt (verbosity : Int) : Level → Bool
  | .warning => -1 ≤ verbosity
  | .info => 0 ≤ verbosity
  | .debug => 1 ≤ verbosity

/-- An entry as it is shown, with its level. -/
def Entry.line (e : Entry) : Level × String := (e.level, e.message)

/-- What there is to show of a run that a source is delivered to: the warning, if the device failed
at the end of it, and then the source step by step on the way to its profile. -/
def Source.account (d : Source) (e : Ending) : List (Level × String) :=
  (if e = .broken then
    [(.warning, s!"Reading the input failed after {d.length} bytes, using the data read so far.")]
  else []) ++
    [(.debug, s!"Read {d.length} bytes of input."),
     (.debug, "Preprocessed source code:\n" ++ Text.Latin.decode d.prepared),
     (.debug, s!"Found {d.prepared.tokens.length} tokens."),
     (.debug, "Classification: " ++ d.profile.describe)]

/-! ## The part of the verbosity -/

theorem conclude_at_verbosity (o : RunOptions) (v : Int) (soFar : Log) (s : Source) :
    conclude { o with verbosity := v } soFar s =
      { conclude o soFar s with log := (soFar ++ s.survey.log).visible v } := by
  unfold conclude
  simp only
  cases s.survey.profile.render o.format with
  | error e => rfl
  | ok text => rfl

/-- **The verbosity chooses from a log**, and leaves everything else about a run as it is. -/
theorem exists_log_of_run (o : RunOptions) (s : Stream) :
    ∃ l : Log, ∀ v, run { o with verbosity := v } s = { run o s with log := l.visible v } := by
  unfold run
  simp only
  cases s.readAll o.blockSize with
  | error e => exact ⟨[], fun v => rfl⟩
  | ok reading =>
    simp only
    cases reading.ending with
    | raised kind message => exact ⟨reading.log, fun v => rfl⟩
    | complete => exact ⟨_, fun v => conclude_at_verbosity o v reading.log reading.bytes⟩
    | broken => exact ⟨_, fun v => conclude_at_verbosity o v reading.log reading.bytes⟩

theorem isShownAt_eq (v : Int) (l : Level) : l.isShownAt v = decide (l.threshold ≤ v) := by
  cases l <;> rfl

/-- What is shown, as text: the lines of the levels that are shown. -/
theorem line_visible (v : Int) (l : Log) :
    (l.visible v).map Entry.line = (l.map Entry.line).filter (·.1.isShownAt v) := by
  rw [List.filter_map, Log.visible]
  congr 2
  funext e
  exact (isShownAt_eq v e.level).symm

/-! ## The log of a source -/

theorem notice_eq_visible (e : Ending) (count : Nat) (v : Int) :
    e.notice count v = Log.visible v (if e = .broken then [.readFailed count] else []) := by
  unfold Ending.notice
  by_cases he : e = .broken
  · rw [if_pos he, Log.visible_singleton]
    simp only [he, true_and]
    rfl
  · simp [he, Log.visible]

theorem line_log_of_delivers {f : OutputFormat} {n : Int} (hn : 0 < n) {s : Stream} {d : Source}
    {e : Ending} (h : s.Delivers n.toNat d e) (v : Int) :
    (run ⟨.known f, n, v⟩ s).log.map Entry.line =
      (d.account e).filter (·.1.isShownAt v) := by
  have haccount : ((if e = .broken then [Entry.readFailed d.length] else []) ++ d.log).map
      Entry.line = d.account e := by
    rw [List.map_append, Source.account]
    by_cases he : e = .broken
    · simp only [he, if_true]
      rfl
    · simp only [he, if_false]
      rfl
  rw [run_eq_of_delivers hn h, ← haccount, ← line_visible, visible_append, notice_eq_visible]

/-! ## Lengths -/

/-- Preparing takes bytes out and puts none in. -/
theorem Source.length_prepared_le (s : Source) : s.prepared.length ≤ s.length := by
  calc s.prepared.length
    _ = s.beforeNul.withoutLiterals.length := List.length_map ..
    _ ≤ s.beforeNul.length := (withoutLiterals_sublist _).length_le
    _ ≤ s.length := (List.takeWhile_sublist _).length_le

/-- **A run and what it shows.** Whatever the stream, a run writes the same at every verbosity and
comes to the same failure, if any; the verbosity chooses what is shown of one log. If the stream
raises no fault but those of the device, the run does not fail. It is delivered a source, which it
writes the profile of, and what it shows is the account of this source and this profile, as far as
the levels go. The words counted there take up two bytes of the prepared source each, the last one
perhaps one, and preparing adds no bytes. -/
theorem run_at_each_verbosity :
    (∀ (o : RunOptions) (s : Stream), ∃ l : Log, ∀ v,
      run { o with verbosity := v } s = { run o s with log := l.visible v }) ∧
      ∀ (f : OutputFormat) (n : Int) (s : Stream), 0 < n →
        (∀ kind message, ¬ s.Raises n.toNat kind message) →
        ∃ (d : Source) (e : Ending), s.Delivers n.toNat d e ∧
          2 * d.prepared.tokens.length ≤ d.prepared.length + 1 ∧
          d.prepared.length ≤ d.length ∧
          ∀ v, (run ⟨.known f, n, v⟩ s).failure = none ∧
            (run ⟨.known f, n, v⟩ s).written = d.profile.inFormat f ++ "\n" ∧
            (run ⟨.known f, n, v⟩ s).log.map Entry.line =
              (d.account e).filter (·.1.isShownAt v) := by
  refine ⟨exists_log_of_run, ?_⟩
  intro f n s hn hs
  rcases Stream.delivers_or_raises (show 0 < n.toNat by omega) s with
    ⟨d, e, h⟩ | ⟨kind, message, h⟩
  · refine ⟨d, e, h, d.prepared.length_tokens, d.length_prepared_le, ?_⟩
    intro v
    refine ⟨?_, ?_, line_log_of_delivers hn h v⟩
    · rw [run_eq_of_delivers hn h]
    · rw [run_eq_of_delivers hn h]
  · exact absurd h (hs kind message)

/-- A source with a literal in it, after which the device fails: a low verbosity shows the failure
alone, a high one all there is to show, and the answer is the same. -/
theorem run_at_each_verbosity_of_broken :
    let s : Stream := .script [.block (Source.ofText "FLD \"x\"ax"), .fault .device]
    let outcome := fun v => run ⟨.known .answer, 2, v⟩ s
    (∀ kind message, ¬ s.Raises 2 kind message) ∧
      (outcome (-2)).log.map Entry.line = [] ∧
      (outcome (-1)).log.map Entry.line =
        [(.warning, "Reading the input failed after 9 bytes, using the data read so far.")] ∧
      ((outcome 1).log.map Entry.line).drop 2 =
        [(.debug, "Preprocessed source code:\nfld ax"), (.debug, "Found 2 tokens."),
         (.debug, "Classification: " ++ ({ x87 := true } : Profile).describe)] ∧
      (outcome (-2)).written = "86 0 1 16\n" ∧ (outcome 1).written = "86 0 1 16\n" := by
  intro s outcome
  have hdelivers : s.Delivers 2 (Source.ofText "FLD \"x\"ax") .broken :=
    (Stream.delivers_iff (by decide)).2 ⟨rfl, by decide, by decide, trivial⟩
  have hs : ∀ kind message, ¬ s.Raises 2 kind message := by
    intro kind message h
    exact Stream.not_delivers_of_raises (by decide) h _ _ hdelivers
  obtain ⟨d, e, h, -, -, hshown⟩ := run_at_each_verbosity.2 .answer 2 s (by decide) hs
  obtain ⟨-, hd, he, -⟩ := (Stream.delivers_iff (by decide)).1 h
  obtain ⟨-, hd', he', -⟩ := (Stream.delivers_iff (by decide)).1 hdelivers
  obtain rfl : d = Source.ofText "FLD \"x\"ax" := hd.symm.trans hd'
  obtain rfl : e = .broken := he.symm.trans he'
  obtain ⟨-, hwritten, hlow⟩ := hshown (-2)
  obtain ⟨-, -, hwarned⟩ := hshown (-1)
  obtain ⟨-, hwritten', hhigh⟩ := hshown 1
  refine ⟨hs, hlow.trans ?_, hwarned.trans ?_, (congrArg (List.drop 2) hhigh).trans ?_,
    hwritten.trans ?_, hwritten'.trans ?_⟩
  · decide
  · decide
  · rfl
  · decide
  · decide

end AsmDialect
