import AsmDialect.Proofs.CommandLine.Obstacles
/-!
# A file or standard input

The command reads a file if it is given one, and standard input otherwise. What counts is what the
stream that it reads delivers to reads of the block size: for the same source either way comes to
the same text, and the logs differ by the note on the file and by the warning on an input that broke
off. A plain file delivers its bytes to reads of each size whose blocks can be addressed and have
room on the machine, and raises a fault otherwise, which makes the command fail; standard input may
well be such a file too. Main statements: the command by what is delivered to it
(`command_of_delivers`), the sizes that a plain file takes (`delivers_of_file_iff`), a file and
standard input side by side (`command_same_for_file`), and a size of block that keeps them apart,
because no machine can count so far (`command_file_uncountable`).
-/

namespace AsmDialect.CommandLine

/-- The note on the file to read, as far as it is shown. -/
def fileNote (verbosity : Int) (path : String) : Log :=
  if 0 ≤ verbosity then [.readingFrom path] else []

variable {v : Int} {args : List String} {files : FileSet} {stdin : Stream} {s : Settings}

theorem visible_opening_of_file {path : String} (h : s.inputFile = some path) (v : Int) :
    s.opening.visible v = fileNote v path := by
  rw [Settings.opening, h]
  exact Log.visible_singleton v (.readingFrom path)

theorem visible_opening_of_stdin (h : s.inputFile = none) (v : Int) :
    s.opening.visible v = [] := by
  rw [Settings.opening, h]
  rfl

theorem input_of_file {path : String} {f : Stream} (h : s.inputFile = some path)
    (hf : files.opened path = .ok f) : s.input files stdin = .ok f := by
  rw [Settings.input, h]
  exact hf

theorem input_of_stdin (h : s.inputFile = none) : s.input files stdin = .ok stdin := by
  simp only [Settings.input, h]

/-- **The command on what is delivered**: it writes the answer in the form that is asked for. -/
theorem command_of_delivers (hs : s.AreAskedFor (Item.ofArguments args)) {t : Stream} {d : Source}
    {e : Ending} (ht : s.input files stdin = .ok t) (hd : t.Delivers s.blockSize.toNat d e) :
    command v args files stdin =
      ⟨d.profile.inFormat s.format ++ "\n",
        s.opening.visible v ++ (e.notice d.length v ++ d.log.visible v), none⟩ := by
  rw [command, Settings.ofArguments_eq_ok_iff.2 hs]
  simp only [Settings.perform, ht, Settings.options, run_eq_of_delivers hs.blockSize_pos hd]
  rfl

/-- **The command on a fault** fails with it, and writes nothing. -/
theorem command_of_raises (hs : s.AreAskedFor (Item.ofArguments args)) {t : Stream}
    {kind : FaultKind} {message : String} (ht : s.input files stdin = .ok t)
    (hr : t.Raises s.blockSize.toNat kind message) :
    command v args files stdin =
      ⟨"", s.opening.visible v, some (.run (.stream kind message))⟩ := by
  rw [command, Settings.ofArguments_eq_ok_iff.2 hs]
  simp only [Settings.perform, ht, run_of_raises (o := s.options v) hs.blockSize_pos hr,
    Outcome.after, Outcome.failed, Outcome.mapFailure, List.append_nil]
  rfl

/-! ## Files -/

/-- **The sizes that a plain file takes**: it delivers its bytes if a block can be addressed and
there is room for it. -/
theorem delivers_of_file_iff {room n : Nat} (hn : 0 < n) {d : Source} :
    (Stream.holding (.file room) d).Delivers n d .complete ↔
      n + blockOverhead ≤ indexLimit ∧ n + blockOverhead ≤ room := by
  rw [Stream.delivers_iff hn, ← Holder.refusal?_file_eq_none_iff]
  constructor
  · rintro ⟨h, -⟩
    exact h
  · intro h
    exact ⟨h, rfl, rfl, trivial⟩

/-- Any other size is met with a fault, whatever is in the file. -/
theorem raises_of_file {room n : Nat} (hn : 0 < n) (d : Source)
    (h : ¬ (n + blockOverhead ≤ indexLimit ∧ n + blockOverhead ≤ room)) :
    ∃ kind message, (Stream.holding (.file room) d).Raises n kind message := by
  rcases Stream.delivers_or_raises hn (.holding (.file room) d) with ⟨d', e, hd⟩ | hr
  · obtain ⟨hrefusal, -⟩ := (Stream.delivers_iff hn).1 hd
    exact absurd (Holder.refusal?_file_eq_none_iff.1 hrefusal) h
  · exact hr

theorem command_of_file (hs : s.AreAskedFor (Item.ofArguments args)) {path : String} {f : Stream}
    {d : Source} (hpath : s.inputFile = some path) (hf : files.opened path = .ok f)
    (hd : f.Delivers s.blockSize.toNat d .complete) :
    command v args files stdin =
      ⟨d.profile.inFormat s.format ++ "\n", fileNote v path ++ d.log.visible v, none⟩ := by
  rw [command_of_delivers hs (input_of_file hpath hf) hd, visible_opening_of_file hpath]
  rfl

theorem command_of_stdin (hs : s.AreAskedFor (Item.ofArguments args)) (hnone : s.inputFile = none)
    {d : Source} {e : Ending} (hd : stdin.Delivers s.blockSize.toNat d e) :
    command v args files stdin =
      ⟨d.profile.inFormat s.format ++ "\n", e.notice d.length v ++ d.log.visible v, none⟩ := by
  rw [command_of_delivers hs (input_of_stdin hnone) hd, visible_opening_of_stdin hnone]
  rfl

/-- **A file and standard input** with the same source. If the file that is opened delivers it to
reads of the block size, the command writes the same for both, in blocks of whatever sizes. The log
for the file is the one for standard input with the note on the file before it, and without the
warning if standard input broke off. What there is on standard input does not matter where there is
a file. If the file raises a fault instead, the command fails with this fault, and the note on the
file is all it leaves. Which of the two a plain file does is up to the block size and the machine. -/
theorem command_same_for_file :
    (∀ (v : Int) (args args' : List String) (files files' : FileSet) (stdin stdin' f : Stream)
        (s t : Settings) (path : String) (d : Source) (e : Ending),
        s.AreAskedFor (Item.ofArguments args) → t.AreAskedFor (Item.ofArguments args') →
        s.format = t.format → s.inputFile = some path → t.inputFile = none →
        files.opened path = .ok f → f.Delivers s.blockSize.toNat d .complete →
        stdin'.Delivers t.blockSize.toNat d e →
        let o := command v args files stdin
        let o' := command v args' files' stdin'
        exitCode o = 0 ∧ exitCode o' = 0 ∧ o.written = o'.written ∧
          (e = .complete → o.log = fileNote v path ++ o'.log) ∧
          (e = .broken → ∃ log : Log, o.log = fileNote v path ++ log ∧
            o'.log = (if -1 ≤ v then [.readFailed d.length] else []) ++ log)) ∧
      (∀ (v : Int) (args : List String) (files : FileSet) (stdin f : Stream) (s : Settings)
        (path : String) (kind : FaultKind) (message : String),
        s.AreAskedFor (Item.ofArguments args) → s.inputFile = some path →
        files.opened path = .ok f → f.Raises s.blockSize.toNat kind message →
        let o := command v args files stdin
        o.failure = some (.run (.stream kind message)) ∧
          exitCode o = 1 ∧ o.written = "" ∧ o.log = fileNote v path) ∧
      ∀ (room n : Nat) (d : Source), 0 < n →
        let f : Stream := .holding (.file room) d
        (f.Delivers n d .complete ↔ n + blockOverhead ≤ indexLimit ∧ n + blockOverhead ≤ room) ∧
          (¬ f.Delivers n d .complete → ∃ kind message, f.Raises n kind message) := by
  refine ⟨?_, ?_, ?_⟩
  · intro v args args' files files' stdin stdin' f s t path d e hs ht hformat hpath hnone hopened hf
      hd o o'
    have ho : o = _ := command_of_file hs hpath hopened hf
    have ho' : o' = _ := command_of_stdin ht hnone hd
    rw [ho, ho', hformat]
    refine ⟨rfl, rfl, rfl, ?_, ?_⟩
    · rintro rfl
      rfl
    · rintro rfl
      refine ⟨d.log.visible v, rfl, ?_⟩
      simp only [Ending.notice, true_and]
  · intro v args files stdin f s path kind message hs hpath hopened hr o
    have ho : o = _ := command_of_raises hs (input_of_file hpath hopened) hr
    rw [ho, visible_opening_of_file hpath]
    exact ⟨rfl, rfl, rfl, rfl⟩
  · intro room n d hn f
    refine ⟨delivers_of_file_iff hn, fun h => raises_of_file hn d ?_⟩
    rwa [← delivers_of_file_iff hn]

/-- A set of one plain file, opened by its name. -/
theorem opened_of_one_file (d : Source) (room : Nat) :
    FileSet.opened { entries := [(["a.s"], .file d)], room } "a.s" =
      .ok (.holding (.file room) d) := by
  have hnul : "a.s".contains (Char.ofNat 0) = false := by simp
  have hroot : "a.s".startsWith "/" = false := by simp
  rw [FileSet.opened, hnul, FileSet.start, hroot]
  rfl

/-- A plain file read in blocks of two bytes, with a fault waiting on standard input, and the same
source on standard input that breaks off after it. On a machine with room for few bytes, the file
does not take the default size. -/
theorem command_same_for_file_in_blocks :
    let d := Source.ofText "ldr"
    let files : FileSet := { entries := [(["a.s"], .file d)], room := 4000 }
    let f : Stream := .holding (.file 4000) d
    let stdin : Stream := .script [.fault (.other .value "")]
    let stdin' : Stream := .script [.block d, .fault .device]
    let args := ["--isaguess_input_file=a.s", "--isaguess_read_block_size=2"]
    let args' := ["--isaguess_input_file=a.s"]
    let s : Settings := { inputFile := some "a.s", blockSize := 2 }
    let t : Settings := {}
    let u : Settings := { inputFile := some "a.s" }
    (s.AreAskedFor (Item.ofArguments args) ∧ t.AreAskedFor (Item.ofArguments []) ∧
      files.opened "a.s" = .ok f ∧ f.Delivers s.blockSize.toNat d .complete ∧
      stdin'.Delivers t.blockSize.toNat d .broken ∧
      (command 0 args files stdin).written = (command 0 [] {} stdin').written ∧
      ∃ log : Log, (command 0 args files stdin).log = .readingFrom "a.s" :: log ∧
        (command 0 [] {} stdin').log = .readFailed 3 :: log) ∧
    u.AreAskedFor (Item.ofArguments args') ∧ f.Raises u.blockSize.toNat .memory "" ∧
      (command 0 args' files stdin).failure = some (.run (.stream .memory "")) := by
  intro d files f stdin stdin' args args' s t u
  have hs : s.AreAskedFor (Item.ofArguments args) :=
    Settings.ofArguments_eq_ok_iff.1 (by decide)
  have ht : t.AreAskedFor (Item.ofArguments []) := Settings.ofArguments_eq_ok_iff.1 (by decide)
  have hu : u.AreAskedFor (Item.ofArguments args') :=
    Settings.ofArguments_eq_ok_iff.1 (by decide)
  have hopened : files.opened "a.s" = .ok f := opened_of_one_file d 4000
  obtain ⟨hsame, hraised, hplain⟩ := command_same_for_file
  have hf : f.Delivers s.blockSize.toNat d .complete :=
    (hplain 4000 s.blockSize.toNat d (by decide)).1.2 (by decide)
  have hd : stdin'.Delivers t.blockSize.toNat d .broken :=
    (Stream.delivers_iff (by decide)).2 ⟨rfl, by decide, by decide, trivial⟩
  have hr : f.Raises u.blockSize.toNat .memory "" := .here (Stream.read_of_refusal (by decide))
  obtain ⟨-, -, hwritten, -, hlogs⟩ := hsame 0 args [] files {} stdin stdin' f s t "a.s" d .broken hs
    ht rfl rfl rfl hopened hf hd
  obtain ⟨hfailure, -⟩ := hraised 0 args' files stdin f u "a.s" .memory "" hu rfl hopened hr
  exact ⟨⟨hs, ht, hopened, hf, hd, hwritten, hlogs rfl⟩, hu, hr, hfailure⟩

/-- A block size that no machine can count. For the same source, the command fails on a plain file
that is asked for blocks of this size, and answers on standard input in blocks of the default size.
-/
theorem command_file_uncountable :
    let d := Source.ofText "ldr"
    let files : FileSet := { entries := [(["a.s"], .file d)] }
    let f : Stream := .holding (.file files.room) d
    let args := ["--isaguess_input_file=a.s", "--isaguess_read_block_size=9223372036854775808"]
    let s : Settings := { inputFile := some "a.s", blockSize := 9223372036854775808 }
    let t : Settings := {}
    s.AreAskedFor (Item.ofArguments args) ∧ t.AreAskedFor (Item.ofArguments []) ∧
      s.format = t.format ∧ s.inputFile = some "a.s" ∧ t.inputFile = none ∧
      files.opened "a.s" = .ok f ∧ f.Delivers t.blockSize.toNat d .complete ∧
      exitCode (command 0 args files f) = 1 ∧ exitCode (command 0 [] files f) = 0 ∧
      (command 0 args files f).written ≠ (command 0 [] files f).written ∧
      ∀ room : Nat, exitCode (command 0 args { files with room } f) = 1 := by
  intro d files f args s t
  have hs : s.AreAskedFor (Item.ofArguments args) :=
    Settings.ofArguments_eq_ok_iff.1 (by decide)
  have ht : t.AreAskedFor (Item.ofArguments []) := Settings.ofArguments_eq_ok_iff.1 (by decide)
  have hopened (room : Nat) :
      FileSet.opened { files with room } "a.s" = .ok (.holding (.file room) d) :=
    opened_of_one_file d room
  have hcount : indexLimit < s.blockSize.toNat := by decide
  have hr (room : Nat) : (Stream.holding (.file room) d).Raises s.blockSize.toNat .overflow
      "cannot fit 'int' into an index-sized integer" :=
    .here (Stream.read_of_refusal (Holder.refusal?_of_indexLimit_lt hcount (.file room)))
  have hfile (room : Nat) : command 0 args { files with room } f = _ :=
    command_of_raises hs (input_of_file rfl (hopened room)) (hr room)
  have hd : f.Delivers t.blockSize.toNat d .complete :=
    (delivers_of_file_iff (by decide)).2 (by decide)
  have hstdin : command 0 [] files f = _ := command_of_stdin ht rfl hd
  refine ⟨hs, ht, rfl, rfl, rfl, hopened _, hd, ?_, ?_, ?_, fun room => ?_⟩
  · rw [hfile files.room]
    rfl
  · rw [hstdin]
    rfl
  · rw [hfile files.room, hstdin]
    simp [t, Profile.inFormat]
  · rw [hfile room]
    rfl

end AsmDialect.CommandLine
