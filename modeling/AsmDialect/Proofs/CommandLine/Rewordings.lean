import AsmDialect.Proofs.CommandLine.LastValues
import AsmDialect.Proofs.CommandLine.Writings
/-!
# Rewordings

The same can be asked of the command in many ways. A setting can be written in another of the four
ways, it can be left out if a later one counts in its place, it can change places with its
neighbour, and a form of the output can be named in other letters, capital or small. A value that is
no good is an exception: it is reported wherever it stands, and before all that is wrong behind it.
Main statements: lists that ask alike come to the same settings (`AskAlike.ofArguments_eq`), a
list asks alike in other words (`Rewording.askAlike`), and nothing about the command changes with
the wording (`command_same_for_rewording`).
-/

namespace AsmDialect.CommandLine

/-! ## Lists that ask alike -/

/-- Whether items come to the same: they have the same first fault, the same last values, and the
same to be said against them as a whole. -/
structure AskAlike (items items' : List Item) : Prop where
  fault : items.findSome? Item.fault? = items'.findSome? Item.fault?
  inputFile : lastValue? .inputFile items = lastValue? .inputFile items'
  format : lastFormat? items = lastFormat? items'
  blockSize : lastBlockSize? items = lastBlockSize? items'
  unknown : items.findSome? Settings.unknownName? = items'.findSome? Settings.unknownName?
  positional : items.any Settings.isPositional = items'.any Settings.isPositional

namespace AskAlike

variable {items items' : List Item} {args args' : List String}

theorem refl (items : List Item) : AskAlike items items := ⟨rfl, rfl, rfl, rfl, rfl, rfl⟩

theorem areLast (h : AskAlike items items') {s : Settings} (hs : s.AreLast items) :
    s.AreLast items' :=
  ⟨h.inputFile ▸ hs.inputFile, h.format ▸ hs.format, h.blockSize ▸ hs.blockSize⟩

theorem check_eq (h : AskAlike items items') (s : Settings) : s.check items = s.check items' := by
  rw [Settings.check, Settings.check, h.unknown, h.positional]

/-- **Lists that ask alike** come to the same settings, or to the same error. -/
theorem ofArguments_eq (h : AskAlike (Item.ofArguments args) (Item.ofArguments args')) :
    Settings.ofArguments args = Settings.ofArguments args' := by
  cases hf : (Item.ofArguments args).findSome? Item.fault? with
  | some e =>
    rw [Settings.ofArguments_of_fault hf, Settings.ofArguments_of_fault (h.fault ▸ hf)]
  | none =>
    obtain ⟨s, hs, heq⟩ := Settings.ofArguments_of_no_fault hf
    obtain ⟨t, ht, heq'⟩ := Settings.ofArguments_of_no_fault (h.fault ▸ hf)
    obtain rfl : s = t := (h.areLast hs).unique ht
    rw [heq, heq', h.check_eq]

theorem command_eq (h : AskAlike (Item.ofArguments args) (Item.ofArguments args')) (v : Int)
    (files : FileSet) (stdin : Stream) :
    command v args files stdin = command v args' files stdin := by
  rw [command, command, h.ofArguments_eq]

end AskAlike

/-! ## Last values -/

theorem isSome_lastValue? {f : Flag} {value : String} {items : List Item}
    (h : .setting f value ∈ items) : (lastValue? f items).isSome := by
  have hmem : value ∈ items.filterMap (Item.valueFor? f) :=
    List.mem_filterMap.2 ⟨_, h, if_pos rfl⟩
  exact List.getLast?_isSome.2 (List.ne_nil_of_mem hmem)

theorem valueFor?_or_comm {f g : Flag} (h : f ≠ g) (value value' : String) (k : Flag) :
    ((Item.setting f value).valueFor? k).or ((Item.setting g value').valueFor? k) =
      ((Item.setting g value').valueFor? k).or ((Item.setting f value).valueFor? k) := by
  by_cases hk : f = k
  · subst hk
    rw [Item.valueFor?, Item.valueFor?, if_neg h.symm, Option.or_none, Option.none_or]
  · rw [Item.valueFor?, if_neg hk, Option.or_none, Option.none_or]

theorem lastFormat?_congr {items items' : List Item}
    (h : lastValue? .outputFormat items = lastValue? .outputFormat items') :
    lastFormat? items = lastFormat? items' := by
  rw [lastFormat?, lastFormat?, h]

theorem lastBlockSize?_congr {items items' : List Item}
    (h : lastValue? .blockSize items = lastValue? .blockSize items') :
    lastBlockSize? items = lastBlockSize? items' := by
  rw [lastBlockSize?, lastBlockSize?, h]

/-! ## Edits -/

section Edits

variable {f g : Flag} {value value' : String} (l r : List Item)

/-- **Left out**: a value that is all right on its own does not count if another one follows. -/
theorem askAlike_dropped (hv : (Item.setting f value).fault? = none) (hr : .setting f value' ∈ r) :
    AskAlike (l ++ .setting f value :: r) (l ++ r) := by
  have hlast (g : Flag) : lastValue? g (l ++ .setting f value :: r) = lastValue? g (l ++ r) := by
    rw [lastValue?_append, lastValue?_append, lastValue?_cons, Item.valueFor?]
    split
    next hg =>
      subst hg
      obtain ⟨last, hlast⟩ := Option.isSome_iff_exists.1 (isSome_lastValue? hr)
      rw [hlast]
      rfl
    next => rw [Option.or_none]
  refine ⟨?_, hlast _, lastFormat?_congr (hlast _), lastBlockSize?_congr (hlast _), ?_, ?_⟩
  · simp only [List.findSome?_append, List.findSome?_cons, hv]
  · simp only [List.findSome?_append, List.findSome?_cons, Settings.unknownName?]
  · simp only [List.any_append, List.any_cons, Settings.isPositional, Bool.false_or]

/-- **Changed places**: the order of settings of different flags does not count, unless both are no
good. -/
theorem askAlike_swapped (hfg : f ≠ g)
    (hv : (Item.setting f value).fault? = none ∨ (Item.setting g value').fault? = none) :
    AskAlike (l ++ .setting f value :: .setting g value' :: r)
      (l ++ .setting g value' :: .setting f value :: r) := by
  have hlast (k : Flag) : lastValue? k (l ++ .setting f value :: .setting g value' :: r) =
      lastValue? k (l ++ .setting g value' :: .setting f value :: r) := by
    rw [lastValue?_append, lastValue?_append]
    congr 1
    simp only [lastValue?_cons]
    rw [Option.or_assoc, ← valueFor?_or_comm hfg, Option.or_assoc]
  refine ⟨?_, hlast _, lastFormat?_congr (hlast _), lastBlockSize?_congr (hlast _), ?_, ?_⟩
  · simp only [List.findSome?_append, List.findSome?_cons]
    rcases hv with hv | hv <;> simp only [hv]
  · simp only [List.findSome?_append, List.findSome?_cons, Settings.unknownName?]
  · simp only [List.any_append, List.any_cons, Settings.isPositional, Bool.false_or]

/-- **Renamed**: of a form of the output nothing counts but which one it is. -/
theorem askAlike_renamed {format : OutputFormat} (hv : formatNamed? value = some format)
    (hv' : formatNamed? value' = some format) :
    AskAlike (l ++ .setting .outputFormat value :: r) (l ++ .setting .outputFormat value' :: r) := by
  have hlast (k : Flag) (hk : .outputFormat ≠ k) :
      lastValue? k (l ++ .setting .outputFormat value :: r) =
        lastValue? k (l ++ .setting .outputFormat value' :: r) := by
    simp only [lastValue?_append, lastValue?_cons, Item.valueFor?, if_neg hk]
  refine ⟨?_, hlast _ (by decide), ?_, lastBlockSize?_congr (hlast _ (by decide)), ?_, ?_⟩
  · simp only [List.findSome?_append, List.findSome?_cons, Item.fault?, hv, hv']
  · simp only [lastFormat?, lastValue?_append, lastValue?_cons, Item.valueFor?, if_pos]
    cases lastValue? .outputFormat r with
    | some last => rfl
    | none => exact hv.trans hv'.symm
  · simp only [List.findSome?_append, List.findSome?_cons, Settings.unknownName?]
  · simp only [List.any_append, List.any_cons, Settings.isPositional]

end Edits

/-! ## Letters -/

/-- The small letter of a capital. The long s is an S here too. -/
def small (c : Char) : Char := if c = 'ſ' then 's' else c.toLower

/-- Whether two texts differ in nothing but which letters are capitals. -/
def SameLetters (t u : String) : Prop := t.toList.map small = u.toList.map small

instance (t u : String) : Decidable (SameLetters t u) :=
  inferInstanceAs (Decidable (t.toList.map small = u.toList.map small))

theorem capital_small_of_lt :
    ∀ k < 26, capital (small (Char.ofNat (65 + k))) = capital (Char.ofNat (65 + k)) := by
  decide

@[simp] theorem capital_small (c : Char) : capital (small c) = capital c := by
  by_cases hs : c = 'ſ'
  · subst hs
    rfl
  by_cases hc : 'A'.val ≤ c.val ∧ c.val ≤ 'Z'.val
  · have hle : 65 ≤ c.toNat := hc.1
    have hge : c.toNat ≤ 90 := hc.2
    have h := capital_small_of_lt (c.toNat - 65) (by omega)
    rwa [Nat.add_sub_cancel' hle, Char.ofNat_toNat] at h
  · have hlower : c.toLower = c := dif_neg hc
    rw [small, if_neg hs, hlower]

theorem formatNamed?_congr {t u : String} (h : SameLetters t u) :
    formatNamed? t = formatNamed? u := by
  have hcapital (t : String) : (t.toList.map small).map capital = t.toList.map capital := by simp
  rw [formatNamed?_eq, formatNamed?_eq, ← hcapital t, ← hcapital u, h]

/-! ## Rewordings -/

/-- An argument list and another that differs in one or two settings, each read at the same place.
What comes before them has been read, and what comes after can be anything. -/
inductive Rewording : List String → List String → Prop
  /-- A setting is written in another way. Its value need not be any good. -/
  | respelled {before : List String} {l : List Item} (hb : IsRead before l) (w w' : Writing)
      (f : Flag) (value : String) (after : List String) :
      Rewording (before ++ (w.arguments f value ++ after))
        (before ++ (w'.arguments f value ++ after))
  /-- A setting is left out, since its flag is set again. The later value need not be any good. -/
  | dropped {before : List String} {l : List Item} (hb : IsRead before l) (w : Writing) (f : Flag)
      (value : String) (after : List String) {later : String}
      (hv : (Item.setting f value).fault? = none)
      (hl : .setting f later ∈ Item.ofArguments after) :
      Rewording (before ++ (w.arguments f value ++ after)) (before ++ after)
  /-- Two settings in a row change places. If neither is any good, the other error comes first. -/
  | swapped {before : List String} {l : List Item} (hb : IsRead before l) (w w' : Writing)
      (f g : Flag) (value value' : String) (after : List String) (hfg : f ≠ g)
      (hv : (Item.setting f value).fault? = none ∨ (Item.setting g value').fault? = none) :
      Rewording (before ++ (w.arguments f value ++ (w'.arguments g value' ++ after)))
        (before ++ (w'.arguments g value' ++ (w.arguments f value ++ after)))
  /-- A form of the output is named in other letters. If there is no such form, the error shows
  them. -/
  | recased {before : List String} {l : List Item} (hb : IsRead before l) (w : Writing)
      (value value' : String) (after : List String) {format : OutputFormat}
      (hv : formatNamed? value = some format) (hl : SameLetters value value') :
      Rewording (before ++ (w.arguments .outputFormat value ++ after))
        (before ++ (w.arguments .outputFormat value' ++ after))

theorem Rewording.askAlike {args args' : List String} (h : Rewording args args') :
    AskAlike (Item.ofArguments args) (Item.ofArguments args') := by
  cases h with
  | respelled hb w w' f value after =>
    rw [hb.ofArguments_append, hb.ofArguments_append, ofArguments_arguments, ofArguments_arguments]
    exact .refl _
  | dropped hb w f value after hv hl =>
    rw [hb.ofArguments_append, hb.ofArguments_append, ofArguments_arguments]
    exact askAlike_dropped _ _ hv hl
  | swapped hb w w' f g value value' after hfg hv =>
    simp only [hb.ofArguments_append, ofArguments_arguments]
    exact askAlike_swapped _ _ hfg hv
  | recased hb w value value' after hv hl =>
    rw [hb.ofArguments_append, hb.ofArguments_append, ofArguments_arguments, ofArguments_arguments]
    exact askAlike_renamed _ _ hv ((formatNamed?_congr hl).symm.trans hv)

/-- **The wording does not count.** Wherever a setting is read, it was written in one of the four
ways, behind arguments that were read before it. It can be written in another way there, left out if
its value is all right and its flag is set again behind it, or change places with a setting of
another flag right behind it; and if it names a form of the output, it can do so in other letters.
The command leaves the same behind each time: what it writes, its log and its failure. -/
theorem command_same_for_rewording :
    (∀ (args : List String) (l r : List Item) (f : Flag) (value : String),
        Item.ofArguments args = l ++ .setting f value :: r →
        ∃ (before : List String) (w : Writing) (after : List String), IsRead before l ∧
          args = before ++ (w.arguments f value ++ after) ∧ Item.ofArguments after = r) ∧
      ∀ (args args' : List String), Rewording args args' →
        ∀ (v : Int) (files : FileSet) (stdin : Stream),
          command v args files stdin = command v args' files stdin := by
  constructor
  · intro args l r f value h
    exact exists_writing h
  · intro args args' h v files stdin
    exact h.askAlike.command_eq v files stdin

/-- An edit of each kind, one after the other, behind an argument that belongs to no flag and before
two dashes that end the reading. The first block size is a numeral, so it can be left out, although
it is not positive. -/
theorem command_same_for_rewording_of_each :
    let args := ["left", "--isaguess_read_block_size=-1", "-isaguess_read_block_size", "0x10",
      "--isaguess_output_format=Report", "--", "-isaguess_input_file"]
    let respelled := ["left", "-isaguess_read_block_size", "-1", "-isaguess_read_block_size",
      "0x10", "--isaguess_output_format=Report", "--", "-isaguess_input_file"]
    let dropped := ["left", "-isaguess_read_block_size", "0x10", "--isaguess_output_format=Report",
      "--", "-isaguess_input_file"]
    let swapped := ["left", "--isaguess_output_format=Report", "-isaguess_read_block_size", "0x10",
      "--", "-isaguess_input_file"]
    let recased := ["left", "--isaguess_output_format=rePORT", "-isaguess_read_block_size", "0x10",
      "--", "-isaguess_input_file"]
    (∃ (before : List String) (w : Writing) (after : List String),
        IsRead before [.positional "left"] ∧
          args = before ++ (w.arguments .blockSize "-1" ++ after)) ∧
      (Rewording args respelled ∧ Rewording respelled dropped ∧ Rewording dropped swapped ∧
        Rewording swapped recased) ∧
      ∀ (v : Int) (files : FileSet) (stdin : Stream),
        command v args files stdin = command v recased files stdin := by
  intro args respelled dropped swapped recased
  obtain ⟨hplace, hsame⟩ := command_same_for_rewording
  have hb : IsRead ["left"] [.positional "left"] := .positional (by decide) .nil
  have hrespelled : Rewording args respelled :=
    .respelled hb ⟨true, true⟩ ⟨false, false⟩ .blockSize "-1" _
  have hlater : .setting .blockSize "0x10" ∈ Item.ofArguments dropped.tail := by decide
  have hdropped : Rewording respelled dropped :=
    .dropped hb ⟨false, false⟩ .blockSize "-1" _ (by decide) hlater
  have hswapped : Rewording dropped swapped :=
    .swapped hb ⟨false, false⟩ ⟨true, true⟩ .blockSize .outputFormat "0x10" "Report" _ (by decide)
      (.inl (by decide))
  have hreport : formatNamed? "Report" = some .report := by
    rw [formatNamed?_eq]
    decide
  have hrecased : Rewording swapped recased :=
    .recased hb ⟨true, true⟩ "Report" "rePORT" _ hreport (by decide)
  refine ⟨?_, ⟨hrespelled, hdropped, hswapped, hrecased⟩, ?_⟩
  · obtain ⟨before, w, after, hbefore, hargs, -⟩ :=
      hplace args [.positional "left"] (Item.ofArguments dropped.tail) .blockSize "-1" (by decide)
    exact ⟨before, w, after, hbefore, hargs⟩
  · intro v files stdin
    rw [hsame _ _ hrespelled, hsame _ _ hdropped, hsame _ _ hswapped, hsame _ _ hrecased]

end AsmDialect.CommandLine
