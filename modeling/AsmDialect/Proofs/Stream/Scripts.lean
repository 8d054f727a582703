import Mathlib.Data.List.TakeWhile
import Mathlib.Logic.ExistsUnique
import AsmDialect.Proofs.Runs
/-!
# Reading a script

A script gives its answers whatever size it is asked for, so what becomes of a reading is in the
answers: the blocks with bytes in them that it opens with make up the source, and the next answer,
if there is one, ends the reading in one of four ways. No answer after it is asked for. Main
statements: a reading by the opening of its script (`drain_of_isOpening`), and the same with what is
shown of its log (`readAll_of_script`).
-/

namespace AsmDialect

/-- Whether a script opens with the given blocks, each with bytes in it, and goes on with answers of
which the first is no such block. -/
structure IsOpening (answers : List Answer) (blocks : List Source) (rest : List Answer) : Prop where
  eq_append : answers = blocks.map .block ++ rest
  ne_nil : ∀ b ∈ blocks, b ≠ []
  longest : ∀ b, rest.head? = some (.block b) → b = []

/-! ## Openings -/

theorem isDelivery_block_iff {b : Source} : (Answer.block b).isDelivery = true ↔ b ≠ [] := by
  simp [Answer.isDelivery, Answer.bytes]

theorem isDelivery_iff {a : Answer} : a.isDelivery = true ↔ ∃ b, b ≠ [] ∧ a = .block b := by
  cases a with
  | block b => simp [isDelivery_block_iff]
  | nothing => simp [Answer.isDelivery, Answer.bytes]
  | fault f => simp [Answer.isDelivery, Answer.bytes]

/-- Every script has an opening. -/
theorem exists_isOpening (answers : List Answer) :
    ∃ blocks rest, IsOpening answers blocks rest := by
  induction answers with
  | nil => exact ⟨[], [], rfl, by simp, by simp⟩
  | cons a answers ih =>
    by_cases ha : a.isDelivery = true
    · obtain ⟨b, hb, rfl⟩ := isDelivery_iff.1 ha
      obtain ⟨blocks, rest, h⟩ := ih
      refine ⟨b :: blocks, rest, congrArg (Answer.block b :: ·) h.eq_append, ?_, h.longest⟩
      exact List.forall_mem_cons.2 ⟨hb, h.ne_nil⟩
    · refine ⟨[], a :: answers, rfl, by simp, ?_⟩
      rintro b hb
      rw [Option.some.inj hb, isDelivery_block_iff] at ha
      exact Decidable.not_not.1 ha

namespace IsOpening

variable {answers rest : List Answer} {blocks : List Source}

theorem isDelivery_of_mem (h : IsOpening answers blocks rest) :
    ∀ a ∈ blocks.map Answer.block, a.isDelivery = true := by
  intro a ha
  obtain ⟨b, hb, rfl⟩ := List.mem_map.1 ha
  exact isDelivery_block_iff.2 (h.ne_nil b hb)

theorem not_isDelivery_first (h : IsOpening answers blocks rest) (hlength : 0 < rest.length) :
    ¬ rest[0].isDelivery = true := by
  intro hd
  obtain ⟨b, hb, hfirst⟩ := isDelivery_iff.1 hd
  apply hb
  apply h.longest
  rw [List.head?_eq_getElem?, List.getElem?_eq_getElem hlength, hfirst]

theorem takeWhile_eq (h : IsOpening answers blocks rest) :
    answers.takeWhile Answer.isDelivery = blocks.map .block := by
  rw [h.eq_append, List.takeWhile_append_of_pos h.isDelivery_of_mem,
    List.takeWhile_eq_nil_iff.2 h.not_isDelivery_first, List.append_nil]

theorem dropWhile_eq (h : IsOpening answers blocks rest) :
    answers.dropWhile Answer.isDelivery = rest := by
  rw [h.eq_append, List.dropWhile_append_of_pos h.isDelivery_of_mem,
    List.dropWhile_eq_self_iff.2 h.not_isDelivery_first]

/-- What a script is left with once its blocks and one answer more are read. -/
theorem after_eq (h : IsOpening answers blocks rest) (n : Nat) :
    Stream.script rest.tail = (Stream.script answers).after n (blocks.length + 1) := by
  have hlength : blocks.length = (blocks.map Answer.block).length := by
    rw [List.length_map]
  rw [Stream.after_script, ← List.tail_drop, h.eq_append, hlength, List.drop_left]

/-- A script opens in one way only. -/
theorem unique {blocks' : List Source} {rest' : List Answer} (h : IsOpening answers blocks rest)
    (h' : IsOpening answers blocks' rest') : blocks' = blocks ∧ rest' = rest := by
  constructor
  · apply (List.map_inj_right fun _ _ => Answer.block.inj).1
    exact h'.takeWhile_eq.symm.trans h.takeWhile_eq
  · rw [← h'.dropWhile_eq, h.dropWhile_eq]

end IsOpening

/-! ## Readings -/

/-- **A reading by the opening of its script**: the source is made of the blocks, each of them takes
a request, and one request more is made to learn how it ends. -/
theorem Stream.drain_of_isOpening {answers rest : List Answer} {blocks : List Source}
    (h : IsOpening answers blocks rest) {n : Nat} (hn : 0 < n) :
    (script answers).drain n hn =
      ⟨blocks.flatten, List.replicate (blocks.length + 1) n, Answer.endingOf rest.head?,
        .script rest.tail⟩ := by
  have hbytes : (blocks.map Answer.block).flatMap Answer.bytes = blocks.flatten := by
    rw [List.flatMap_map, ← List.flatMap_id]
    rfl
  rw [drain_script, delivered, ending, h.takeWhile_eq, h.dropWhile_eq, hbytes, List.length_map]

theorem visible_log_of_complete {r : Reading} (h : r.ending = .complete) (v : Int) :
    r.log.visible v = if 1 ≤ v then [.bytesRead r.bytes.length] else [] := by
  rw [Reading.log, h]
  exact Log.visible_singleton v _

theorem visible_log_of_broken {r : Reading} (h : r.ending = .broken) (v : Int) :
    r.log.visible v =
      (if -1 ≤ v then [.readFailed r.bytes.length] else []) ++
        if 1 ≤ v then [.bytesRead r.bytes.length] else [] := by
  have hnotice : r.ending.notice r.bytes.length v =
      if -1 ≤ v then [.readFailed r.bytes.length] else [] := by
    simp [Ending.notice, h]
  rw [visible_log (by rw [h]; trivial), hnotice, Log.visible_singleton]
  rfl

/-- **Reading a script.** A script opens with its blocks in one way. A reading of it asks for the
same size each time, once for each block and once more, and leaves alone what comes after. If the
script is at its end then, or the answer is an empty block or none, the blocks are what is read. If
the device fails, they are what is read too, with a warning that tells how much it is. Any other
fault is passed on as it is, and nothing is noted. A size that asks for nothing is refused whatever
the stream, so the stream is not touched. -/
theorem readAll_of_script :
    (∀ answers : List Answer,
      ∃! p : List Source × List Answer, IsOpening answers p.1 p.2) ∧
      (∀ (answers rest : List Answer) (blocks : List Source) (n : Int),
        IsOpening answers blocks rest → 0 < n →
        ∃ r, (Stream.script answers).readAll n = .ok r ∧
          r.requests = List.replicate (blocks.length + 1) n.toNat ∧
          r.rest = .script rest.tail ∧
          r.rest = (Stream.script answers).after n.toNat (blocks.length + 1) ∧
          (rest.head? ∈ [none, some (.block []), some .nothing] →
            r.bytes = blocks.flatten ∧ r.ending = .complete ∧
            ∀ v, r.log.visible v = if 1 ≤ v then [.bytesRead blocks.flatten.length] else []) ∧
          (rest.head? = some (.fault .device) →
            r.bytes = blocks.flatten ∧ r.ending = .broken ∧
            ∀ v, r.log.visible v =
              (if -1 ≤ v then [.readFailed blocks.flatten.length] else []) ++
                if 1 ≤ v then [.bytesRead blocks.flatten.length] else []) ∧
          ∀ kind message, rest.head? = some (.fault (.other kind message)) →
            r.ending = .raised kind message ∧ r.log = [] ∧
            ∀ f v, run ⟨f, n, v⟩ (.script answers) = .failed [] (.stream kind message)) ∧
      (∀ (s : Stream) (n : Int), n ≤ 0 → s.readAll n = .error ⟨n⟩) ∧
      ∀ count, (Entry.bytesRead count).level = .debug ∧
        (Entry.bytesRead count).message = s!"Read {count} bytes of input." ∧
        (Entry.readFailed count).level = .warning ∧
        (Entry.readFailed count).message =
          s!"Reading the input failed after {count} bytes, using the data read so far." := by
  refine ⟨?_, ?_, ?_, fun count => ⟨rfl, rfl, rfl, rfl⟩⟩
  · intro answers
    obtain ⟨blocks, rest, h⟩ := exists_isOpening answers
    exact ⟨(blocks, rest), h, fun p hp => Prod.ext (h.unique hp).1 (h.unique hp).2⟩
  · intro answers rest blocks n h hn
    have hpos : 0 < n.toNat := by omega
    have hdrain := Stream.drain_of_isOpening h hpos
    refine ⟨(Stream.script answers).drain n.toNat hpos, dif_pos hn, ?_⟩
    rw [hdrain]
    refine ⟨rfl, rfl, h.after_eq n.toNat, ?_, ?_, ?_⟩
    · intro hend
      have he : Answer.endingOf rest.head? = .complete := by
        simp only [List.mem_cons, List.not_mem_nil, or_false] at hend
        rcases hend with he | he | he <;> rw [he] <;> rfl
      exact ⟨rfl, he, visible_log_of_complete he⟩
    · intro hend
      have he : Answer.endingOf rest.head? = .broken := by
        rw [hend]
        rfl
      exact ⟨rfl, he, visible_log_of_broken he⟩
    · intro kind message hend
      have he : Answer.endingOf rest.head? = .raised kind message := by
        rw [hend]
        rfl
      refine ⟨he, by rw [Reading.log, he], fun f v => ?_⟩
      apply run_of_raises hn
      apply Stream.raises_of_ending hpos
      rw [hdrain]
      exact he
  · intro s n hn
    exact dif_neg (by omega)

/-- Two blocks, longer than they are asked for, before the device fails, before another fault and
before no block at all. -/
theorem readAll_of_script_two_blocks :
    let blocks := [Source.ofText "vldr", Source.ofText " r0"]
    let failing : List Answer := [.fault .device, .block (Source.ofText "ax")]
    let raising : List Answer := [.fault (.other .value "closed"), .nothing]
    let ending : List Answer := [.nothing, .fault .device]
    let opened := blocks.map Answer.block
    IsOpening (opened ++ failing) blocks failing ∧
      (∃ r, (Stream.script (opened ++ failing)).readAll 2 = .ok r ∧ r.requests = [2, 2, 2] ∧
        r.rest = .script [.block (Source.ofText "ax")] ∧ r.bytes = Source.ofText "vldr r0" ∧
        r.log.visible 0 = [.readFailed 7]) ∧
      IsOpening (opened ++ raising) blocks raising ∧
      run ⟨.known .answer, 2, 1⟩ (.script (opened ++ raising)) =
        .failed [] (.stream .value "closed") ∧
      IsOpening (opened ++ ending) blocks ending ∧
      (∃ r, (Stream.script (opened ++ ending)).readAll 2 = .ok r ∧
        r.rest = .script [.fault .device] ∧ r.log.visible 1 = [.bytesRead 7]) ∧
      (Stream.script opened).readAll 0 = .error ⟨0⟩ := by
  intro blocks failing raising ending opened
  have hne : ∀ b ∈ blocks, b ≠ [] := by decide
  have hfailing : IsOpening (opened ++ failing) blocks failing := ⟨rfl, hne, nofun⟩
  have hraising : IsOpening (opened ++ raising) blocks raising := ⟨rfl, hne, nofun⟩
  have hending : IsOpening (opened ++ ending) blocks ending := ⟨rfl, hne, nofun⟩
  obtain ⟨-, hopened, hrefused, -⟩ := readAll_of_script
  obtain ⟨r, hr, hrequests, hrest, -, -, hbroken, -⟩ := hopened _ _ _ 2 hfailing (by decide)
  obtain ⟨_, -, -, -, -, -, -, hraised⟩ := hopened _ _ _ 2 hraising (by decide)
  obtain ⟨r', hr', -, hrest', -, hended, -, -⟩ := hopened _ _ _ 2 hending (by decide)
  obtain ⟨hbytes, -, hlog⟩ := hbroken rfl
  obtain ⟨-, -, hlog'⟩ := hended (by decide)
  refine ⟨hfailing, ⟨r, hr, hrequests, hrest, hbytes, hlog 0⟩, hraising, ?_, hending,
    ⟨r', hr', hrest', hlog' 1⟩, hrefused _ 0 (by decide)⟩
  exact (hraised .value "closed" rfl).2.2 (.known .answer) 1

end AsmDialect
