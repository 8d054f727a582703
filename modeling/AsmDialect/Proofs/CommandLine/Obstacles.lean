import AsmDialect.Proofs.CommandLine.LastValues
import AsmDialect.Proofs.Ranks
import AsmDialect.Proofs.Runs
/-!
# Obstacles

Six kinds of thing can keep the command from giving an answer, and any number of them can be there
at once: a value that is no good, a flag there is none of, a block size that is not positive, an
argument too many, a file that cannot be opened, a stream that raises a fault. Each is told by
itself (`Obstacle`), from the argument list, the files and standard input, without regard to the
others. The failures rank in this order, and the command fails with the first one. Main statements:
the command by its first obstacle (`command_of_first`), without one (`command_of_no_obstacle`), and
both together (`command_outcome`).
-/

namespace AsmDialect.CommandLine

/-- The stream that items ask to be read, unless it is in a file that cannot be opened. -/
def chosenInput? (items : List Item) (files : FileSet) (stdin : Stream) : Option Stream :=
  match lastValue? .inputFile items with
  | none => some stdin
  | some path => (files.opened path).toOption

/-- What stands in the way of an answer, each with the failure that it alone would lead to. -/
inductive Obstacle (items : List Item) (files : FileSet) (stdin : Stream) : CommandFailure → Prop
  /-- A flag has no value, or one that cannot be read. The first such value counts, whether or not
  a better one follows. -/
  | badValue {e : UsageError} (h : items.findSome? Item.fault? = some e) :
      Obstacle items files stdin (.usage e)
  | unknownFlag {name : String} (h : items.findSome? Settings.unknownName? = some name) :
      Obstacle items files stdin (.usage (.unknownFlag name))
  /-- The block size asked for last is not positive. Those before it do not count. -/
  | notPositive {n : Int} (h : lastBlockSize? items = some n) (hn : n ≤ 0) :
      Obstacle items files stdin (.usage (.notPositive n))
  | positional {arg : String} (h : .positional arg ∈ items) :
      Obstacle items files stdin (.usage .tooManyArguments)
  | file {path : String} {e : OpenError} (h : lastValue? .inputFile items = some path)
      (he : files.opened path = .error e) : Obstacle items files stdin (.file e)
  | stream {s : Stream} {n : Int} {kind : FaultKind} {message : String}
      (h : chosenInput? items files stdin = some s) (hn : lastBlockSize? items = some n)
      (hr : s.Raises n.toNat kind message) :
      Obstacle items files stdin (.run (.stream kind message))

/-- The rank of what can be wrong with an argument list. -/
def UsageError.rank : UsageError → Nat
  | missingValue _ => 1
  | badFormat _ => 1
  | badNumeral .. => 1
  | unknownFlag _ => 2
  | notPositive _ => 3
  | tooManyArguments => 4

/-- The rank of a failure among those of the command. -/
def CommandFailure.rank : CommandFailure → Nat
  | usage e => e.rank
  | file _ => 5
  | run _ => 6

/-- Whether all obstacles rank behind the given number. -/
def ClearTo (k : Nat) (items : List Item) (files : FileSet) (stdin : Stream) : Prop :=
  ∀ e, Obstacle items files stdin e → k < e.rank

theorem rank_of_fault {items : List Item} {e : UsageError}
    (h : items.findSome? Item.fault? = some e) : e.rank = 1 := by
  obtain ⟨item, -, hitem⟩ := List.exists_of_findSome?_eq_some h
  cases item with
  | setting f value =>
    cases f <;> simp only [Item.fault?] at hitem
    · cases hitem
    · split at hitem <;> cases hitem
      rfl
    · split at hitem <;> cases hitem
      rfl
  | missing arg =>
    cases hitem
    rfl
  | unknown name => cases hitem
  | positional arg => cases hitem

/-! ## What is clear of obstacles -/

namespace ClearTo

variable {k : Nat} {items : List Item} {files : FileSet} {stdin : Stream}

theorem no_fault (h : ClearTo k items files stdin) (hk : 1 ≤ k) :
    items.findSome? Item.fault? = none := by
  cases hf : items.findSome? Item.fault? with
  | none => rfl
  | some e =>
    have hlt : k < e.rank := h _ (.badValue hf)
    rw [rank_of_fault hf] at hlt
    omega

theorem no_unknown (h : ClearTo k items files stdin) (hk : 2 ≤ k) :
    items.findSome? Settings.unknownName? = none := by
  cases hu : items.findSome? Settings.unknownName? with
  | none => rfl
  | some name =>
    have hlt : k < 2 := h _ (.unknownFlag hu)
    omega

theorem blockSize_pos (h : ClearTo k items files stdin) (hk : 3 ≤ k) {n : Int}
    (hn : lastBlockSize? items = some n) : 0 < n := by
  by_contra hle
  have hlt : k < 3 := h _ (.notPositive hn (by omega))
  omega

theorem no_positional (h : ClearTo k items files stdin) (hk : 4 ≤ k) (arg : String) :
    .positional arg ∉ items := by
  intro harg
  have hlt : k < 4 := h _ (.positional harg)
  omega

theorem exists_chosenInput (h : ClearTo k items files stdin) (hk : 5 ≤ k) :
    ∃ s, chosenInput? items files stdin = some s := by
  unfold chosenInput?
  split
  next => exact ⟨stdin, rfl⟩
  next path hpath =>
    cases hc : files.opened path with
    | ok s => exact ⟨s, rfl⟩
    | error e =>
      have hlt : k < 5 := h _ (.file hpath hc)
      omega

end ClearTo

/-- Conversely, nothing stands in the way of what is delivered to a list that is in order. -/
theorem not_obstacle_of_delivers {items : List Item} {files : FileSet} {stdin t : Stream} {n : Int}
    {d : Source} {ending : Ending} (hf : items.findSome? Item.fault? = none)
    (hu : items.findSome? Settings.unknownName? = none)
    (hp : items.any Settings.isPositional = false) (hn : lastBlockSize? items = some n)
    (hpos : 0 < n) (ht : chosenInput? items files stdin = some t) (hd : t.Delivers n.toNat d ending)
    (e : CommandFailure) : ¬ Obstacle items files stdin e := by
  intro he
  cases he with
  | badValue h =>
    rw [hf] at h
    cases h
  | unknownFlag h =>
    rw [hu] at h
    cases h
  | notPositive h hle =>
    cases hn.symm.trans h
    omega
  | positional h =>
    rw [List.any_eq_true.2 ⟨_, h, rfl⟩] at hp
    cases hp
  | file h he =>
    rw [chosenInput?, h] at ht
    simp [he, Except.toOption] at ht
  | stream h hn' hr =>
    cases ht.symm.trans h
    cases hn.symm.trans hn'
    exact Stream.not_delivers_of_raises (by omega) hr d ending hd

/-! ## The argument list -/

section

variable {args : List String} {files : FileSet} {stdin : Stream}

theorem ofArguments_of_first {e : UsageError}
    (h : IsFirst (Obstacle (Item.ofArguments args) files stdin) CommandFailure.rank (.usage e)) :
    Settings.ofArguments args = .error e := by
  obtain ⟨hob, hle⟩ := h
  -- no obstacle ranks before this one, so the list is clear up to the rank before its own
  cases hob with
  | badValue hf => exact Settings.ofArguments_of_fault hf
  | unknownFlag hu =>
    have hclear : ClearTo 1 (Item.ofArguments args) files stdin := hle
    obtain ⟨s, -, hs⟩ := Settings.ofArguments_of_no_fault (hclear.no_fault le_rfl)
    rw [hs, Settings.check_of_unknown hu]
  | notPositive hn hle0 =>
    have hclear : ClearTo 2 (Item.ofArguments args) files stdin := hle
    obtain ⟨s, hlast, hs⟩ := Settings.ofArguments_of_no_fault (hclear.no_fault (by decide))
    obtain rfl : s.blockSize = _ := Option.some.inj (hlast.blockSize.symm.trans hn)
    rw [hs, Settings.check_of_not_positive (hclear.no_unknown le_rfl) hle0]
  | positional harg =>
    have hclear : ClearTo 3 (Item.ofArguments args) files stdin := hle
    obtain ⟨s, hlast, hs⟩ := Settings.ofArguments_of_no_fault (hclear.no_fault (by decide))
    rw [hs, Settings.check_of_positional (hclear.no_unknown (by decide))
      (hclear.blockSize_pos le_rfl hlast.blockSize) harg]

theorem ofArguments_of_clear {k : Nat} (h : ClearTo k (Item.ofArguments args) files stdin)
    (hk : 4 ≤ k) : ∃ s : Settings, s.AreLast (Item.ofArguments args) ∧ 0 < s.blockSize ∧
      Settings.ofArguments args = .ok s := by
  obtain ⟨s, hlast, hs⟩ := Settings.ofArguments_of_no_fault (h.no_fault (by omega))
  have hn : 0 < s.blockSize := h.blockSize_pos (by omega) hlast.blockSize
  refine ⟨s, hlast, hn, ?_⟩
  rw [hs, Settings.check_of_no_positional (h.no_unknown (by omega)) hn (h.no_positional hk)]

end

/-! ## The command -/

/-- What is noted before the input is opened, if there is a file to read. -/
def openingLog (verbosity : Int) (items : List Item) : Log :=
  if 0 ≤ verbosity then (lastValue? .inputFile items).toList.map .readingFrom else []

/-- What a failure leaves in the log. -/
def logOfFailure (verbosity : Int) (items : List Item) : CommandFailure → Log
  | .usage _ => []
  | _ => openingLog verbosity items

section

variable {s : Settings} {items : List Item}

theorem visible_opening (hs : s.AreLast items) (v : Int) :
    s.opening.visible v = openingLog v items := by
  rw [openingLog, hs.inputFile, Settings.opening]
  cases s.inputFile with
  | none => simp [Log.visible]
  | some path => exact Log.visible_singleton v (.readingFrom path)

theorem input_of_error (hs : s.AreLast items) {files : FileSet} {stdin : Stream} {path : String}
    {e : OpenError} (hpath : lastValue? .inputFile items = some path)
    (he : files.opened path = .error e) : s.input files stdin = .error e := by
  rw [Settings.input, ← hs.inputFile, hpath]
  exact he

theorem input_of_chosen (hs : s.AreLast items) {files : FileSet} {stdin t : Stream}
    (h : chosenInput? items files stdin = some t) : s.input files stdin = .ok t := by
  rw [chosenInput?, hs.inputFile] at h
  rw [Settings.input]
  cases hp : s.inputFile with
  | none =>
    rw [hp] at h
    cases h
    rfl
  | some path =>
    rw [hp] at h
    cases hc : files.opened path with
    | error e => simp [hc, Except.toOption] at h
    | ok s => simpa [hc, Except.toOption] using h

end

variable {args : List String} {files : FileSet} {stdin : Stream}

/-- **The first obstacle** is what the command fails with. -/
theorem command_of_first {v : Int} {e : CommandFailure}
    (h : IsFirst (Obstacle (Item.ofArguments args) files stdin) CommandFailure.rank e) :
    command v args files stdin = .failed (logOfFailure v (Item.ofArguments args) e) e := by
  cases e with
  | usage e =>
    rw [command, ofArguments_of_first h]
    rfl
  | file e =>
    obtain ⟨hob, hle⟩ := h
    cases hob with
    | file hpath he =>
      have hclear : ClearTo 4 (Item.ofArguments args) files stdin := hle
      obtain ⟨s, hlast, -, hs⟩ := ofArguments_of_clear hclear le_rfl
      rw [command, hs]
      simp only [Settings.perform, input_of_error hlast hpath he, visible_opening hlast,
        Outcome.after, Outcome.failed, List.append_nil]
      rfl
  | run e =>
    obtain ⟨hob, hle⟩ := h
    cases hob with
    | stream ht hn hr =>
      have hclear : ClearTo 5 (Item.ofArguments args) files stdin := hle
      obtain ⟨s, hlast, hpos, hs⟩ := ofArguments_of_clear hclear (by decide)
      obtain rfl : s.blockSize = _ := Option.some.inj (hlast.blockSize.symm.trans hn)
      rw [command, hs]
      simp only [Settings.perform, input_of_chosen hlast ht, visible_opening hlast,
        run_of_raises (o := s.options v) hpos hr, Outcome.after, Outcome.failed,
        Outcome.mapFailure, List.append_nil]
      rfl

/-- **Without an obstacle** the command writes what the stream that it was asked to read amounts to,
in the form that it was asked for. -/
theorem command_of_no_obstacle (v : Int)
    (h : ∀ e, ¬ Obstacle (Item.ofArguments args) files stdin e) :
    ∃ (t : Stream) (n : Int) (f : OutputFormat) (d : Source) (e : Ending),
      chosenInput? (Item.ofArguments args) files stdin = some t ∧
      lastBlockSize? (Item.ofArguments args) = some n ∧
      lastFormat? (Item.ofArguments args) = some f ∧ t.Delivers n.toNat d e ∧
      command v args files stdin =
        ⟨d.profile.inFormat f ++ "\n", openingLog v (Item.ofArguments args) ++
          (e.notice d.length v ++ d.log.visible v), none⟩ := by
  have hclear (k : Nat) : ClearTo k (Item.ofArguments args) files stdin :=
    fun e he => absurd he (h e)
  obtain ⟨s, hlast, hpos, hs⟩ := ofArguments_of_clear (hclear 4) le_rfl
  obtain ⟨t, ht⟩ := (hclear 5).exists_chosenInput le_rfl
  rcases Stream.delivers_or_raises (show 0 < s.blockSize.toNat by omega) t with
    ⟨d, e, hd⟩ | ⟨kind, message, hr⟩
  · refine ⟨t, s.blockSize, s.format, d, e, ht, hlast.blockSize, hlast.format, hd, ?_⟩
    rw [command, hs]
    simp only [Settings.perform, input_of_chosen hlast ht, visible_opening hlast, Settings.options,
      run_eq_of_delivers hpos hd]
    rfl
  · exact absurd (.stream ht hlast.blockSize hr) (h _)

theorem failure_of_no_obstacle {v : Int}
    (h : ∀ e, ¬ Obstacle (Item.ofArguments args) files stdin e) :
    (command v args files stdin).failure = none := by
  obtain ⟨t, n, f, d, ending, -, -, -, -, ho⟩ := command_of_no_obstacle v h
  rw [ho]

theorem failure_eq_some_iff {v : Int} {e : CommandFailure} :
    (command v args files stdin).failure = some e ↔
      IsFirst (Obstacle (Item.ofArguments args) files stdin) CommandFailure.rank e :=
  eq_some_iff_isFirst (fun _ h => congrArg Outcome.failure (command_of_first h))
    failure_of_no_obstacle

theorem failure_eq_none_iff {v : Int} :
    (command v args files stdin).failure = none ↔
      ∀ e, ¬ Obstacle (Item.ofArguments args) files stdin e :=
  eq_none_iff_forall_not (fun _ h => congrArg Outcome.failure (command_of_first h))
    failure_of_no_obstacle

/-- What a run notes of a source has not the weight of the note on its file. -/
theorem level_ne_info_of_run {v : Int} {d : Source} {e : Ending} {entry : Entry}
    (h : entry ∈ e.notice d.length v ++ d.log.visible v) : entry.level ≠ .info := by
  rcases List.mem_append.1 h with hnotice | hlog
  · unfold Ending.notice at hnotice
    split at hnotice
    · rw [List.mem_singleton.1 hnotice]
      simp [Entry.level]
    · cases hnotice
  · have hmem := (List.mem_filter.1 hlog).1
    simp only [Source.log, Survey.log, List.mem_cons, List.not_mem_nil, or_false] at hmem
    rcases hmem with rfl | rfl | rfl | rfl <;> simp [Entry.level]

theorem exitCode_of_failure {v : Int} {e : CommandFailure}
    (h : (command v args files stdin).failure = some e) :
    exitCode (command v args files stdin) = 1 ∧ (command v args files stdin).written = "" := by
  rw [command_of_first (failure_eq_some_iff.1 h)]
  exact ⟨rfl, rfl⟩

theorem exitCode_of_no_failure {v : Int} (h : (command v args files stdin).failure = none) :
    exitCode (command v args files stdin) = 0 := by
  rw [exitCode, h]
  rfl

/-- What is wrong with the argument list is found out whatever files there are, and whatever there
is to read. -/
theorem command_of_usage {v : Int} {e : UsageError}
    (h : (command v args files stdin).failure = some (.usage e)) (files' : FileSet)
    (stdin' : Stream) : command v args files' stdin' = .failed [] (.usage e) := by
  rw [command, ofArguments_of_first (failure_eq_some_iff.1 h)]

/-- If nothing is wrong with the argument list, the note on the file to read comes first. -/
theorem log_of_no_usage {v : Int}
    (h : ∀ e, (command v args files stdin).failure ≠ some (.usage e)) :
    ∃ rest, (command v args files stdin).log = openingLog v (Item.ofArguments args) ++ rest ∧
      ∀ entry ∈ rest, entry.level ≠ .info := by
  cases hf : (command v args files stdin).failure with
  | none =>
    obtain ⟨t, n, f, d, ending, -, -, -, -, ho⟩ :=
      command_of_no_obstacle v (failure_eq_none_iff.1 hf)
    exact ⟨_, congrArg Outcome.log ho, fun entry => level_ne_info_of_run⟩
  | some e =>
    have hlog :
        logOfFailure v (Item.ofArguments args) e = openingLog v (Item.ofArguments args) := by
      cases e with
      | usage e => exact absurd hf (h e)
      | _ => rfl
    refine ⟨[], ?_, nofun⟩
    rw [command_of_first (failure_eq_some_iff.1 hf), List.append_nil, ← hlog]
    rfl

/-- **The outcome of the command.** It fails if there is an obstacle, and of several the first one
counts. A failure leaves the status 1 and writes nothing; otherwise the status is 0, and the answer
to what was delivered is written. What is wrong with the argument list itself is found out before
anything is noted, opened or read. Past that, the file to read is noted first of all, if there is
one, and this is the only note of its level. -/
theorem command_outcome (v : Int) (args : List String) (files : FileSet) (stdin : Stream) :
    let items := Item.ofArguments args
    let o := command v args files stdin
    (∀ e, o.failure = some e ↔ IsFirst (Obstacle items files stdin) CommandFailure.rank e) ∧
    (o.failure = none ↔ ∀ e, ¬ Obstacle items files stdin e) ∧
    (∀ e, o.failure = some e → exitCode o = 1 ∧ o.written = "") ∧
    (o.failure = none → exitCode o = 0 ∧
      ∃ (t : Stream) (n : Int) (f : OutputFormat) (d : Source) (ending : Ending),
        chosenInput? items files stdin = some t ∧ lastBlockSize? items = some n ∧
        lastFormat? items = some f ∧ t.Delivers n.toNat d ending ∧
        o.written = d.profile.inFormat f ++ "\n") ∧
    (∀ e, o.failure = some (.usage e) →
      o.log = [] ∧ ∀ files' stdin', command v args files' stdin' = o) ∧
    ((∀ e, o.failure ≠ some (.usage e)) →
      ∃ rest, o.log = openingLog v items ++ rest ∧ ∀ entry ∈ rest, entry.level ≠ .info) := by
  intro items o
  refine ⟨fun e => failure_eq_some_iff, failure_eq_none_iff, fun e => exitCode_of_failure, ?_, ?_,
    log_of_no_usage⟩
  · intro hnone
    obtain ⟨t, n, f, d, ending, ht, hn, hf, hd, ho⟩ :=
      command_of_no_obstacle v (failure_eq_none_iff.1 hnone)
    exact ⟨exitCode_of_no_failure hnone, t, n, f, d, ending, ht, hn, hf, hd,
      congrArg Outcome.written ho⟩
  · intro e he
    have ho : o = .failed [] (.usage e) := command_of_usage he files stdin
    refine ⟨congrArg Outcome.log ho, fun files' stdin' => ?_⟩
    exact (command_of_usage he files' stdin').trans ho.symm

/-- A list with three obstacles, of which the flag there is none of is the first. One with none: the
block size that is not positive is not the last, and two dashes are the name of the file. -/
theorem command_outcome_of_two_lists :
    let source := Source.ofText "vldr r0"
    let files : FileSet := { entries := [(["--"], .file source)] }
    let stdin : Stream := .script [.fault (.other .runtime "")]
    let bad := ["--isaguess_read_block_size=-1", "x", "--nope"]
    let good := ["--isaguess_read_block_size=-1", "--isaguess_input_file", "--",
      "-isaguess_read_block_size", "0x10"]
    (Obstacle (Item.ofArguments bad) files stdin (.usage (.notPositive (-1))) ∧
      Obstacle (Item.ofArguments bad) files stdin (.usage .tooManyArguments) ∧
      IsFirst (Obstacle (Item.ofArguments bad) files stdin) CommandFailure.rank
        (.usage (.unknownFlag "nope")) ∧
      exitCode (command 0 bad files stdin) = 1 ∧ (command 0 bad files stdin).log = []) ∧
    (∀ e, ¬ Obstacle (Item.ofArguments good) files stdin e) ∧
    exitCode (command 0 good files stdin) = 0 ∧
    (command 0 good files stdin).written = source.profile.inFormat .answer ++ "\n" ∧
    ∃ rest, (command 0 good files stdin).log = .readingFrom "--" :: rest := by
  intro source files stdin bad good
  have hsurplus : Item.positional "x" ∈ Item.ofArguments bad := by decide
  have hbad : (command 0 bad files stdin).failure = some (.usage (.unknownFlag "nope")) := by
    decide
  obtain ⟨hfirst, -, hstatus, -, hlog, -⟩ := command_outcome 0 bad files stdin
  refine ⟨⟨.notPositive (by decide) (by decide), .positional hsurplus, (hfirst _).1 hbad,
    (hstatus _ hbad).1, (hlog _ hbad).1⟩, ?_⟩
  have hpath : lastValue? .inputFile (Item.ofArguments good) = some "--" := by decide
  have hnul : "--".contains (Char.ofNat 0) = false := by simp
  have hroot : "--".startsWith "/" = false := by simp
  have hopened : files.opened "--" = .ok (.holding (.file files.room) source) := by
    rw [FileSet.opened, hnul, FileSet.start, hroot]
    rfl
  have hinput : chosenInput? (Item.ofArguments good) files stdin =
      some (.holding (.file files.room) source) := by
    rw [chosenInput?, hpath]
    simp only [hopened]
    rfl
  have hsize : lastBlockSize? (Item.ofArguments good) = some 16 := by decide
  have hdelivers : (Stream.holding (.file files.room) source).Delivers 16 source .complete :=
    (Stream.delivers_iff (by decide)).2 ⟨by decide, rfl, rfl, trivial⟩
  have hclear := not_obstacle_of_delivers (by decide) (by decide) (by decide) hsize (by decide)
    hinput hdelivers
  obtain ⟨-, hnone, -, hanswer, -, hopening⟩ := command_outcome 0 good files stdin
  have hgood := hnone.2 hclear
  obtain ⟨hzero, t, n, f, d, ending, ht, hn, hf, hd, hwritten⟩ := hanswer hgood
  cases hinput.symm.trans ht
  cases hsize.symm.trans hn
  obtain rfl : OutputFormat.answer = f := Option.some.inj hf
  obtain ⟨-, rfl, -⟩ := (Stream.delivers_iff (by decide)).1 hd
  obtain ⟨rest, hrest, -⟩ := hopening (by simp [hgood])
  refine ⟨hclear, hzero, hwritten, rest, ?_⟩
  rw [hrest, openingLog, hpath]
  rfl

end AsmDialect.CommandLine
