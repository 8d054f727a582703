import Mathlib.Data.List.Induction
import AsmDialect.CommandLine.Command
/-!
# Last values

What an argument list asks for, told without going through it item by item: each flag has the last
of the values that the list gives to it, unless there is an item that is wrong on its own. Such an
item counts wherever it stands, also before a better value for the same flag. Main statements: going
through a list comes to the first fault there is (`foldlM_step_of_fault`), or else to the last
values (`foldlM_step_of_no_fault`), which are then checked against the list as a whole
(`ofArguments_of_no_fault`).
-/

namespace AsmDialect.CommandLine

/-- The name of a form by the list of its characters. -/
theorem formatNamed?_eq (t : String) :
    formatNamed? t = Coded.ofName? (String.ofList (t.toList.map capital)) := by
  have hmap : t.map capital = String.ofList (t.toList.map capital) := by
    rw [← String.toList_inj, String.toList_map, String.toList_ofList]
  rw [formatNamed?, hmap]

/-- What is wrong with an item on its own. -/
def Item.fault? : Item → Option UsageError
  | .setting .inputFile _ => none
  | .setting .outputFormat value =>
    match formatNamed? value with
    | some _ => none
    | none => some (.badFormat value)
  | .setting .blockSize value =>
    match Numeral.parse value with
    | .ok _ => none
    | .error e => some (.badNumeral value e)
  | .missing arg => some (.missingValue arg)
  | .unknown _ => none
  | .positional _ => none

/-- The value that an item gives to a flag. -/
def Item.valueFor? (f : Flag) : Item → Option String
  | .setting g value => if g = f then some value else none
  | _ => none

/-- The last value that items give to a flag. -/
def lastValue? (f : Flag) (items : List Item) : Option String :=
  (items.filterMap (Item.valueFor? f)).getLast?

/-- The form of the output that items ask for last, if the last value is the name of one. -/
def lastFormat? (items : List Item) : Option OutputFormat :=
  match lastValue? .outputFormat items with
  | none => some .answer
  | some value => formatNamed? value

/-- The block size that items ask for last, if the last value is a numeral. -/
def lastBlockSize? (items : List Item) : Option Int :=
  match lastValue? .blockSize items with
  | none => some defaultBlockSize
  | some value => (Numeral.parse value).toOption

/-- Whether settings are the last values of items. -/
structure Settings.AreLast (s : Settings) (items : List Item) : Prop where
  inputFile : lastValue? .inputFile items = s.inputFile
  format : lastFormat? items = some s.format
  blockSize : lastBlockSize? items = some s.blockSize

theorem lastValue?_append (f : Flag) (l r : List Item) :
    lastValue? f (l ++ r) = (lastValue? f r).or (lastValue? f l) := by
  rw [lastValue?, List.filterMap_append, List.getLast?_append]
  rfl

theorem lastValue?_singleton (f : Flag) (item : Item) :
    lastValue? f [item] = item.valueFor? f := by
  cases h : item.valueFor? f <;> simp [h, lastValue?]

theorem lastValue?_concat (f : Flag) (items : List Item) (item : Item) :
    lastValue? f (items ++ [item]) = (item.valueFor? f).or (lastValue? f items) := by
  rw [lastValue?_append, lastValue?_singleton]

theorem lastValue?_cons (f : Flag) (item : Item) (items : List Item) :
    lastValue? f (item :: items) = (lastValue? f items).or (item.valueFor? f) := by
  rw [← List.singleton_append, lastValue?_append, lastValue?_singleton]

namespace Settings

/-! ## One item more -/

theorem step_of_fault {item : Item} {e : UsageError} (h : item.fault? = some e) (s : Settings) :
    s.step item = .error e := by
  cases item with
  | setting f value =>
    cases f with
    | inputFile => cases h
    | outputFormat =>
      simp only [step, set]
      cases hf : formatNamed? value with
      | some format => simp [Item.fault?, hf] at h
      | none => simpa [Item.fault?, hf] using h
    | blockSize =>
      simp only [step, set]
      cases hn : Numeral.parse value with
      | ok n => simp [Item.fault?, hn] at h
      | error e' => simpa [Item.fault?, hn] using h
  | missing arg =>
    cases h
    rfl
  | unknown name => cases h
  | positional arg => cases h

/-- An item that is all right on its own keeps the settings at the last values. -/
theorem step_of_no_fault {item : Item} (h : item.fault? = none) {s : Settings} {items : List Item}
    (hs : s.AreLast items) : ∃ t, s.step item = .ok t ∧ t.AreLast (items ++ [item]) := by
  have hlast (f : Flag) := lastValue?_concat f items item
  cases item with
  | setting f value =>
    cases f with
    | inputFile =>
      refine ⟨{ s with inputFile := some value }, rfl, ?_, ?_, ?_⟩
      · exact hlast .inputFile
      · rw [lastFormat?, hlast]
        exact hs.format
      · rw [lastBlockSize?, hlast]
        exact hs.blockSize
    | outputFormat =>
      cases hf : formatNamed? value with
      | none => simp [Item.fault?, hf] at h
      | some format =>
        refine ⟨{ s with format }, by simp only [step, set, hf], ?_, ?_, ?_⟩
        · rw [hlast]
          exact hs.inputFile
        · rw [lastFormat?, hlast]
          exact hf
        · rw [lastBlockSize?, hlast]
          exact hs.blockSize
    | blockSize =>
      cases hn : Numeral.parse value with
      | error e => simp [Item.fault?, hn] at h
      | ok n =>
        refine ⟨{ s with blockSize := n }, by simp only [step, set, hn], ?_, ?_, ?_⟩
        · rw [hlast]
          exact hs.inputFile
        · rw [lastFormat?, hlast]
          exact hs.format
        · rw [lastBlockSize?, hlast]
          exact congrArg Except.toOption hn
  | missing arg => cases h
  | _ =>
    refine ⟨s, rfl, ?_, ?_, ?_⟩
    · rw [hlast]
      exact hs.inputFile
    · rw [lastFormat?, hlast]
      exact hs.format
    · rw [lastBlockSize?, hlast]
      exact hs.blockSize

/-! ## All items -/

theorem areLast_default : Settings.AreLast {} [] := ⟨rfl, rfl, rfl⟩

theorem foldlM_step_concat {items : List Item} {s : Settings}
    (h : items.foldlM step {} = .ok s) (item : Item) :
    (items ++ [item]).foldlM step {} = s.step item := by
  rw [List.foldlM_append, h]
  change [item].foldlM step s = s.step item
  rw [List.foldlM_cons]
  exact bind_pure (s.step item)

/-- **Without a fault** a list comes to the last values. -/
theorem foldlM_step_of_no_fault {items : List Item} (h : items.findSome? Item.fault? = none) :
    ∃ s, items.foldlM step {} = .ok s ∧ s.AreLast items := by
  induction items using List.reverseRecOn with
  | nil => exact ⟨{}, rfl, areLast_default⟩
  | append_singleton items item ih =>
    rw [List.findSome?_append, Option.or_eq_none_iff] at h
    obtain ⟨s, hs, hlast⟩ := ih h.1
    obtain ⟨t, ht, hlast'⟩ := step_of_no_fault (by simpa using h.2) hlast
    exact ⟨t, (foldlM_step_concat hs item).trans ht, hlast'⟩

/-- **A fault** ends it, and of several the first one does. -/
theorem foldlM_step_of_fault {items : List Item} {e : UsageError}
    (h : items.findSome? Item.fault? = some e) : items.foldlM step {} = .error e := by
  induction items using List.reverseRecOn with
  | nil => cases h
  | append_singleton items item ih =>
    rw [List.findSome?_append] at h
    cases hi : items.findSome? Item.fault? with
    | some e' =>
      rw [hi] at h
      cases h
      rw [List.foldlM_append, ih hi]
      rfl
    | none =>
      rw [hi] at h
      obtain ⟨s, hs, -⟩ := foldlM_step_of_no_fault hi
      rw [foldlM_step_concat hs]
      exact step_of_fault (by simpa using h) s

/-! ## The list as a whole -/

theorem ofArguments_of_fault {args : List String} {e : UsageError}
    (h : (Item.ofArguments args).findSome? Item.fault? = some e) : ofArguments args = .error e := by
  rw [ofArguments, foldlM_step_of_fault h]
  rfl

theorem ofArguments_of_no_fault {args : List String}
    (h : (Item.ofArguments args).findSome? Item.fault? = none) :
    ∃ s : Settings, s.AreLast (Item.ofArguments args) ∧
      ofArguments args = s.check (Item.ofArguments args) := by
  obtain ⟨s, hs, hlast⟩ := foldlM_step_of_no_fault h
  refine ⟨s, hlast, ?_⟩
  rw [ofArguments, hs]
  rfl

variable {s : Settings} {items : List Item}

theorem check_of_unknown {name : String} (h : items.findSome? unknownName? = some name) :
    s.check items = .error (.unknownFlag name) := by
  rw [check, h]

theorem check_of_not_positive (hu : items.findSome? unknownName? = none) (hn : s.blockSize ≤ 0) :
    s.check items = .error (.notPositive s.blockSize) := by
  have hp : isPositive s.blockSize = false := decide_eq_false (by omega)
  simp [check, hu, hp]

theorem check_of_positional (hu : items.findSome? unknownName? = none) (hn : 0 < s.blockSize)
    {arg : String} (h : .positional arg ∈ items) : s.check items = .error .tooManyArguments := by
  have hp : isPositive s.blockSize = true := decide_eq_true hn
  have hany : items.any isPositional = true := List.any_eq_true.2 ⟨_, h, rfl⟩
  simp [check, hu, hp, hany]

theorem check_of_no_positional (hu : items.findSome? unknownName? = none) (hn : 0 < s.blockSize)
    (h : ∀ arg, .positional arg ∉ items) : s.check items = .ok s := by
  have hp : isPositive s.blockSize = true := decide_eq_true hn
  have hany : items.any isPositional = false := by
    rw [List.any_eq_false]
    intro item hitem hpos
    cases item with
    | positional arg => exact h arg hitem
    | _ => cases hpos
  simp [check, hu, hp, hany]

/-! ## Lists in order -/

/-- Whether nothing is wrong with items, on their own or as a whole, and settings are their last
values. -/
structure AreAskedFor (s : Settings) (items : List Item) : Prop extends s.AreLast items where
  no_fault : items.findSome? Item.fault? = none
  no_unknown : items.findSome? unknownName? = none
  blockSize_pos : 0 < s.blockSize
  no_positional : ∀ arg, .positional arg ∉ items

theorem AreLast.unique {t : Settings} (hs : s.AreLast items) (ht : t.AreLast items) : s = t := by
  rcases s with ⟨inputFile, format, blockSize⟩
  rcases t with ⟨inputFile', format', blockSize'⟩
  obtain rfl : inputFile = inputFile' := hs.inputFile.symm.trans ht.inputFile
  obtain rfl : format = format' := Option.some.inj (hs.format.symm.trans ht.format)
  obtain rfl : blockSize = blockSize' := Option.some.inj (hs.blockSize.symm.trans ht.blockSize)
  rfl

/-- Settings that come of a list are those it asks for: each thing that can be wrong with the list
is an error. -/
theorem areAskedFor_of_ofArguments {args : List String} (h : ofArguments args = .ok s) :
    s.AreAskedFor (Item.ofArguments args) := by
  have hfault : (Item.ofArguments args).findSome? Item.fault? = none := by
    cases hf : (Item.ofArguments args).findSome? Item.fault? with
    | none => rfl
    | some e => cases h.symm.trans (ofArguments_of_fault hf)
  obtain ⟨t, hlast, ht⟩ := ofArguments_of_no_fault hfault
  have hcheck : t.check (Item.ofArguments args) = .ok s := ht.symm.trans h
  have hunknown : (Item.ofArguments args).findSome? unknownName? = none := by
    cases hu : (Item.ofArguments args).findSome? unknownName? with
    | none => rfl
    | some name => cases hcheck.symm.trans (check_of_unknown hu)
  have hpos : 0 < t.blockSize := by
    by_contra hle
    cases hcheck.symm.trans (check_of_not_positive hunknown (by omega))
  have hnone : ∀ arg, .positional arg ∉ Item.ofArguments args := by
    intro arg harg
    cases hcheck.symm.trans (check_of_positional hunknown hpos harg)
  cases hcheck.symm.trans (check_of_no_positional hunknown hpos hnone)
  exact ⟨hlast, hfault, hunknown, hpos, hnone⟩

/-- **Lists in order** lead to the settings they ask for, and no other lists lead to any. -/
theorem ofArguments_eq_ok_iff {args : List String} :
    ofArguments args = .ok s ↔ s.AreAskedFor (Item.ofArguments args) := by
  constructor
  · exact areAskedFor_of_ofArguments
  · intro h
    obtain ⟨t, hlast, ht⟩ := ofArguments_of_no_fault h.no_fault
    obtain rfl : t = s := hlast.unique h.toAreLast
    rw [ht, check_of_no_positional h.no_unknown h.blockSize_pos h.no_positional]

end Settings

end AsmDialect.CommandLine
