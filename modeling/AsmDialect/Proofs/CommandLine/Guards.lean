import AsmDialect.Proofs.CommandLine.LastValues
import AsmDialect.Proofs.Failures
/-!
# Checks behind the command line

A run refuses a block size that is not positive, and a request for no form. The command looks at its
flags before it runs, and it lets through just what a run takes. So neither refusal can come of an
argument list: the command fails for its arguments, for its file or for what its input raises, and
for nothing else. Main statements: the two checks of the block size agree (`isPositive_iff_readAll`),
what a run is given is what the list asks for last and passes both checks (`Runs.areAskedFor`), and
the failures that are left (`command_trips_no_check`).
-/

namespace AsmDialect.CommandLine

/-- Whether the command gets as far as a run, with the given settings on the given stream. -/
structure Runs (args : List String) (files : FileSet) (stdin : Stream) (s : Settings) (t : Stream) :
    Prop where
  ofArguments_eq : Settings.ofArguments args = .ok s
  input_eq : s.input files stdin = .ok t

/-- **The check of the flag and the check of the reader** let the same block sizes through. -/
theorem isPositive_iff_readAll (n : Int) (s : Stream) :
    isPositive n = true ↔ ∃ r, s.readAll n = .ok r := by
  rw [isPositive, decide_eq_true_eq]
  constructor
  · intro hn
    exact ⟨s.drain n.toNat (by omega), dif_pos hn⟩
  · rintro ⟨r, hr⟩
    apply Decidable.by_contra
    intro hn
    rw [Stream.readAll, dif_neg hn] at hr
    cases hr

namespace Runs

variable {args : List String} {files : FileSet} {stdin : Stream} {s : Settings} {t : Stream}

/-- **What a run is given** is what the argument list asks for. -/
theorem areAskedFor (h : Runs args files stdin s t) : s.AreAskedFor (Item.ofArguments args) :=
  Settings.ofArguments_eq_ok_iff.1 h.ofArguments_eq

theorem isPositive_blockSize (h : Runs args files stdin s t) : isPositive s.blockSize = true :=
  decide_eq_true h.areAskedFor.blockSize_pos

theorem command_eq (h : Runs args files stdin s t) (v : Int) :
    command v args files stdin =
      ((run (s.options v) t).mapFailure .run).after (s.opening.visible v) := by
  rw [command, h.ofArguments_eq]
  simp only [Settings.perform, h.input_eq]

/-- With options that passed, a run can only fail for what its stream raises. -/
theorem raises_of_failure (h : Runs args files stdin s t) {v : Int} {e : RunFailure}
    (he : (run (s.options v) t).failure = some e) :
    ∃ kind message, t.Raises s.blockSize.toNat kind message ∧ e = .stream kind message := by
  have hn := h.areAskedFor.blockSize_pos
  cases (failure_eq_some_iff_isFirst.1 he).holds with
  | blockSize hsize =>
    have hsize' : s.blockSize ≤ 0 := hsize
    omega
  | stream hr => exact ⟨_, _, hr, rfl⟩
  | format hf => cases hf

end Runs

theorem file_of_input_error {files : FileSet} {stdin : Stream} {s : Settings} {e : OpenError}
    (h : s.input files stdin = .error e) :
    ∃ path, s.inputFile = some path ∧ files.opened path = .error e := by
  unfold Settings.input at h
  split at h
  next => cases h
  next path hpath => exact ⟨path, hpath, h⟩

/-- What the command can fail for. -/
theorem failure_cases {v : Int} {args : List String} {files : FileSet} {stdin : Stream}
    {e : CommandFailure} (h : (command v args files stdin).failure = some e) :
    (∃ u, Settings.ofArguments args = .error u ∧ e = .usage u) ∨
      (∃ s path c, Settings.ofArguments args = .ok s ∧ s.inputFile = some path ∧
        files.opened path = .error c ∧ e = .file c) ∨
      ∃ s t kind message, Runs args files stdin s t ∧ t.Raises s.blockSize.toNat kind message ∧
        e = .run (.stream kind message) := by
  cases hs : Settings.ofArguments args with
  | error u =>
    rw [command, hs] at h
    exact .inl ⟨u, rfl, (Option.some.inj h).symm⟩
  | ok s =>
    cases ht : s.input files stdin with
    | error c =>
      obtain ⟨path, hpath, hc⟩ := file_of_input_error ht
      rw [command, hs] at h
      simp only [Settings.perform, ht] at h
      exact .inr (.inl ⟨s, path, c, rfl, hpath, hc, (Option.some.inj h).symm⟩)
    | ok t =>
      have hruns : Runs args files stdin s t := ⟨hs, ht⟩
      rw [hruns.command_eq v] at h
      obtain ⟨e', he', rfl⟩ := Option.map_eq_some_iff.1 h
      obtain ⟨kind, message, hr, rfl⟩ := hruns.raises_of_failure he'
      exact .inr (.inr ⟨s, t, kind, message, hruns, hr, rfl⟩)

/-- The command's run fails for nothing but what its stream raises. -/
theorem raises_of_run_failure {v : Int} {args : List String} {files : FileSet} {stdin : Stream}
    {e : RunFailure} (h : (command v args files stdin).failure = some (.run e)) :
    ∃ s t kind message, Runs args files stdin s t ∧ t.Raises s.blockSize.toNat kind message ∧
      e = .stream kind message := by
  rcases failure_cases h with ⟨_, _, hu⟩ | ⟨_, _, _, _, _, _, hc⟩ |
    ⟨s, t, kind, message, hruns, hr, he⟩
  · cases hu
  · cases hc
  · exact ⟨s, t, kind, message, hruns, hr, CommandFailure.run.inj he⟩

/-- **The command trips no check.** A block size is let through to a run just if the reader does not
refuse it. So whatever the arguments, the files and standard input, a run is given the block size
and the form that are asked for last, the reader takes the one and every profile can be written in
the other. What is left for the command to fail for is its arguments, a file that cannot be opened,
and what the stream that it reads raises. -/
theorem command_trips_no_check :
    (∀ (n : Int) (s : Stream), isPositive n = true ↔ ∃ r, s.readAll n = .ok r) ∧
      (∀ (v : Int) (args : List String) (files : FileSet) (stdin : Stream) (s : Settings)
          (t : Stream), Runs args files stdin s t →
        command v args files stdin =
            ((run (s.options v) t).mapFailure .run).after (s.opening.visible v) ∧
          lastBlockSize? (Item.ofArguments args) = some (s.options v).blockSize ∧
          isPositive (s.options v).blockSize = true ∧
          (∃ r, t.readAll (s.options v).blockSize = .ok r) ∧
          ∃ f, lastFormat? (Item.ofArguments args) = some f ∧ (s.options v).format = .known f ∧
            ∀ p : Profile, p.render (s.options v).format = .ok (p.inFormat f)) ∧
      ∀ (v : Int) (args : List String) (files : FileSet) (stdin : Stream),
        let o := command v args files stdin
        (∀ e, o.failure = some e →
          (∃ u, Settings.ofArguments args = .error u ∧ e = .usage u) ∨
            (∃ s path c, Settings.ofArguments args = .ok s ∧ s.inputFile = some path ∧
              files.opened path = .error c ∧ e = .file c) ∨
            ∃ s t kind message, Runs args files stdin s t ∧
              t.Raises s.blockSize.toNat kind message ∧ e = .run (.stream kind message)) ∧
        (∀ e, o.failure ≠ some (.run (.blockSize e))) ∧
        ∀ e, o.failure ≠ some (.run (.format e)) := by
  refine ⟨isPositive_iff_readAll, ?_, ?_⟩
  · intro v args files stdin s t h
    have hlast := h.areAskedFor.toAreLast
    refine ⟨h.command_eq v, hlast.blockSize, h.isPositive_blockSize, ?_, s.format, hlast.format, rfl,
      fun p => rfl⟩
    exact (isPositive_iff_readAll s.blockSize t).1 h.isPositive_blockSize
  · intro v args files stdin o
    refine ⟨fun e => failure_cases, ?_, ?_⟩
    · intro e he
      obtain ⟨_, _, _, _, _, _, hr⟩ := raises_of_run_failure he
      cases hr
    · intro e he
      obtain ⟨_, _, _, _, _, _, hr⟩ := raises_of_run_failure he
      cases hr

/-- The last of three block sizes is positive, and what the command fails for is up to its input. -/
theorem command_trips_no_check_of_last :
    let args := ["--isaguess_read_block_size=-1", "--isaguess_read_block_size", "0",
      "-isaguess_read_block_size=0x10", "--isaguess_output_format=Report"]
    let stdin : Stream := .script [.fault (.other .value "closed")]
    let s : Settings := { format := .report, blockSize := 16 }
    Runs args {} stdin s stdin ∧ isPositive (s.options 0).blockSize = true ∧
      (∃ r, stdin.readAll 16 = .ok r) ∧
      (command 0 args {} stdin).failure = some (.run (.stream .value "closed")) ∧
      ∃ s' t, Runs args {} stdin s' t ∧ t.Raises s'.blockSize.toNat .value "closed" := by
  intro args stdin s
  obtain ⟨-, hruns, hfailures⟩ := command_trips_no_check
  have hreport : formatNamed? "Report" = some .report := by
    rw [formatNamed?_eq]
    decide
  have hsizes : [Item.setting .blockSize "-1", .setting .blockSize "0",
      .setting .blockSize "0x10"].foldlM Settings.step {} = .ok { blockSize := 16 } := by decide
  have hitems : Item.ofArguments args = [.setting .blockSize "-1", .setting .blockSize "0",
      .setting .blockSize "0x10"] ++ [.setting .outputFormat "Report"] := by decide
  have hfold : (Item.ofArguments args).foldlM Settings.step {} = .ok s := by
    rw [hitems, Settings.foldlM_step_concat hsizes]
    simp only [Settings.step, Settings.set, hreport]
    rfl
  have h : Runs args {} stdin s stdin := by
    refine ⟨?_, rfl⟩
    rw [Settings.ofArguments, hfold]
    decide
  obtain ⟨hcommand, -, hpos, hread, -⟩ := hruns 0 args {} stdin s stdin h
  have hr : stdin.Raises 16 .value "closed" := .here rfl
  have hfailure : (command 0 args {} stdin).failure = some (.run (.stream .value "closed")) := by
    rw [hcommand, run_of_raises (o := s.options 0) (by decide) hr]
    rfl
  refine ⟨h, hpos, hread, hfailure, ?_⟩
  rcases (hfailures 0 args {} stdin).1 _ hfailure with ⟨_, _, hu⟩ | ⟨_, _, _, _, _, _, hc⟩ |
    ⟨s', t, _, _, hruns', hraises, he⟩
  · cases hu
  · cases hc
  · cases he
    exact ⟨s', t, hruns', hraises⟩

end AsmDialect.CommandLine
