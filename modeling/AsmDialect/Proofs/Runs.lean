import AsmDialect.Proofs.Stream.Requests
import AsmDialect.Source.Text
/-!
# Runs on the same source

What is delivered to a run decides all of its outcome but one entry of the log. The size of the
blocks, how the source is cut into them and what a script holds beyond its end leave no trace; a
device that fails leaves a warning, and the source that came before it counts like any other. Main
statements: the outcome of a run by what is delivered to it (`run_eq_of_delivers`), and two runs on
the same source side by side (`run_of_same_source`).
-/

namespace AsmDialect

/-- The warning that a delivery leaves in the log, if the device failed after so many bytes. -/
def Ending.notice (e : Ending) (count : Nat) (verbosity : Int) : Log :=
  if e = .broken ∧ -1 ≤ verbosity then [.readFailed count] else []

/-- The entries that every run leaves which gets to the end of a source. -/
def Source.log (d : Source) : Log := .bytesRead d.length :: d.survey.log

theorem visible_append (v : Int) (l m : Log) :
    (l ++ m : Log).visible v = l.visible v ++ m.visible v :=
  List.filter_append ..

/-- The log of a reading that gets all there is to get: the warning, if there is one, and how much
was read. -/
theorem visible_log {r : Reading} (h : Stream.IsDelivered r.ending) (v : Int) :
    r.log.visible v =
      r.ending.notice r.bytes.length v ++ Log.visible v [.bytesRead r.bytes.length] := by
  unfold Reading.log
  cases he : r.ending with
  | complete => rfl
  | broken =>
    have hsplit : [Entry.readFailed r.bytes.length, .bytesRead r.bytes.length] =
        [.readFailed r.bytes.length] ++ [.bytesRead r.bytes.length] := rfl
    rw [hsplit, visible_append, Log.visible_singleton]
    by_cases hv : -1 ≤ v <;> simp [Ending.notice, Entry.level, Level.threshold, hv]
  | raised kind message =>
    rw [he] at h
    exact absurd h id

theorem visible_log_of_delivered {r : Reading} (h : Stream.IsDelivered r.ending) (v : Int) :
    (r.log ++ r.bytes.survey.log).visible v =
      r.ending.notice r.bytes.length v ++ r.bytes.log.visible v := by
  rw [visible_append, visible_log h, List.append_assoc, ← visible_append]
  rfl

/-- **The outcome of a run** by what is delivered to it. -/
theorem run_eq_of_delivers {f : OutputFormat} {v n : Int} (hn : 0 < n) {s : Stream} {d : Source}
    {e : Ending} (h : s.Delivers n.toNat d e) :
    run ⟨.known f, n, v⟩ s =
      ⟨d.profile.inFormat f ++ "\n", e.notice d.length v ++ d.log.visible v, none⟩ := by
  have he : Stream.IsDelivered e :=
    (Stream.drain_of_delivers (n := n.toNat) (by omega) h).2.2
  obtain ⟨r, rfl, rfl, hrun⟩ := run_of_delivers (o := ⟨.known f, n, v⟩) hn h
  rw [hrun, ← visible_log_of_delivered he]
  rfl

/-! ## Beyond the end -/

theorem takeWhile_append_end {a : Answer} (ha : a.isDelivery = false)
    (answers more : List Answer) :
    (answers ++ a :: more).takeWhile Answer.isDelivery = answers.takeWhile Answer.isDelivery := by
  induction answers with
  | nil => simp [ha]
  | cons b answers ih =>
    rw [List.cons_append, List.takeWhile_cons, List.takeWhile_cons, ih]

theorem head?_dropWhile_append_end {a : Answer} (ha : a.isDelivery = false)
    (answers more : List Answer) :
    ((answers ++ a :: more).dropWhile Answer.isDelivery).head? =
      ((answers ++ [a]).dropWhile Answer.isDelivery).head? := by
  induction answers with
  | nil => simp [ha]
  | cons b answers ih =>
    simp only [List.cons_append, List.dropWhile_cons]
    split
    · exact ih
    · rfl

/-- A run knows of a stream what it delivers and how that ends. -/
theorem run_congr {o : RunOptions} {s t : Stream} (hs : s.refusal? o.blockSize.toNat = none)
    (ht : t.refusal? o.blockSize.toNat = none) (hd : s.delivered = t.delivered)
    (he : s.ending = t.ending) : run o s = run o t := by
  by_cases ho : 0 < o.blockSize
  · have hn : 0 < o.blockSize.toNat := by omega
    have hbytes : (s.drain o.blockSize.toNat hn).bytes = (t.drain o.blockSize.toNat hn).bytes := by
      rw [Stream.drain_bytes hn hs, Stream.drain_bytes hn ht, hd]
    have hending :
        (s.drain o.blockSize.toNat hn).ending = (t.drain o.blockSize.toNat hn).ending := by
      rw [Stream.drain_ending hn hs, Stream.drain_ending hn ht, he]
    have hlog : (s.drain o.blockSize.toNat hn).log = (t.drain o.blockSize.toNat hn).log := by
      rw [Reading.log, Reading.log, hbytes, hending]
    rw [run, run, Stream.readAll, Stream.readAll, dif_pos ho, dif_pos ho]
    simp only
    rw [hbytes, hending, hlog]
  · rw [run, run, Stream.readAll, Stream.readAll, dif_neg ho, dif_neg ho]

/-- What a script holds beyond its end does not matter, however it ends. -/
theorem run_script_append_end {a : Answer} (ha : a.isDelivery = false) (o : RunOptions)
    (answers more more' : List Answer) :
    run o (.script (answers ++ a :: more)) = run o (.script (answers ++ a :: more')) := by
  apply run_congr
  · rfl
  · rfl
  · simp only [Stream.delivered, takeWhile_append_end ha]
  · rw [Stream.ending, Stream.ending, head?_dropWhile_append_end ha,
      head?_dropWhile_append_end ha _ more']

/-- **The same source, however it comes.** Two runs that the same source is delivered to, in blocks
of whatever size, write the same. Their logs are the same too, but for the warning that a device
which failed puts before all other entries. A stream that delivers a source to requests of one size
does so for every other size that it does not refuse. What a script holds beyond its end does not
matter. -/
theorem run_of_same_source :
    (∀ (f : OutputFormat) (v m n : Int) (s t : Stream) (d : Source) (e e' : Ending),
        0 < m → 0 < n → s.Delivers m.toNat d e → t.Delivers n.toNat d e' →
        (run ⟨.known f, m, v⟩ s).failure = none ∧ (run ⟨.known f, n, v⟩ t).failure = none ∧
          (run ⟨.known f, m, v⟩ s).written = (run ⟨.known f, n, v⟩ t).written ∧
          ∃ log : Log, (∀ count, Entry.readFailed count ∉ log) ∧
            (run ⟨.known f, m, v⟩ s).log = e.notice d.length v ++ log ∧
            (run ⟨.known f, n, v⟩ t).log = e'.notice d.length v ++ log) ∧
      (∀ (m n : Int) (s : Stream) (d : Source) (e : Ending), 0 < m → 0 < n →
        s.refusal? n.toNat = none → s.Delivers m.toNat d e → s.Delivers n.toNat d e) ∧
      ∀ (o : RunOptions) (answers more more' : List Answer) (a : Answer), a.isDelivery = false →
        run o (.script (answers ++ a :: more)) = run o (.script (answers ++ a :: more')) := by
  refine ⟨?_, ?_, ?_⟩
  · intro f v m n s t d e e' hm hn hs ht
    rw [run_eq_of_delivers hm hs, run_eq_of_delivers hn ht]
    refine ⟨rfl, rfl, rfl, d.log.visible v, ?_, rfl, rfl⟩
    intro count h
    have hmem := (List.mem_filter.1 h).1
    simp [Source.log, Survey.log] at hmem
  · intro m n s d e hm hn hr h
    exact Stream.delivers_of_delivers (by omega) (by omega) hr h
  · intro o answers more more' a ha
    exact run_script_append_end ha o answers more more'

/-- A source in memory, and the same in two blocks. The second is larger than asked for, and a fault
of the device follows it with more behind. -/
theorem run_of_same_source_in_two_blocks :
    let d := Source.ofText "vldr r0"
    let s : Stream := .holding .memory d
    let blocks : List Answer := [.block (Source.ofText "vl"), .block (Source.ofText "dr r0")]
    let t : Stream := .script (blocks ++ .fault .device :: [.block (Source.ofText "ax")])
    s.Delivers 5 d .complete ∧ t.Delivers 2 d .broken ∧
      (run ⟨.known .report, 5, 0⟩ s).written = (run ⟨.known .report, 2, 0⟩ t).written ∧
      (∃ log : Log, (run ⟨.known .report, 5, 0⟩ s).log = log ∧
        (run ⟨.known .report, 2, 0⟩ t).log = .readFailed 7 :: log) ∧
      run ⟨.known .report, 2, 0⟩ t =
        run ⟨.known .report, 2, 0⟩ (.script (blocks ++ [.fault .device])) := by
  intro d s blocks t
  have hone : s.Delivers 1 d .complete :=
    (Stream.delivers_iff (by decide)).2 ⟨by decide, rfl, rfl, trivial⟩
  have hs : s.Delivers 5 d .complete :=
    run_of_same_source.2.1 1 5 s d .complete (by decide) (by decide) (by decide) hone
  have ht : t.Delivers 2 d .broken :=
    (Stream.delivers_iff (by decide)).2 ⟨rfl, by decide, by decide, trivial⟩
  obtain ⟨-, -, hwritten, log, -, hlog, hlog'⟩ := run_of_same_source.1 .report 0 5 2 s t d .complete
    .broken (by decide) (by decide) hs ht
  refine ⟨hs, ht, hwritten, ⟨log, hlog, hlog'⟩, ?_⟩
  exact run_of_same_source.2.2 _ blocks _ [] (.fault .device) rfl

end AsmDialect
