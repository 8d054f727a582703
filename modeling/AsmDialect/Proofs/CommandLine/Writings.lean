import AsmDialect.CommandLine.Item
/-!
# Ways to write a setting

A flag is given its value in four ways: after one dash or two, and behind an equals sign or in the
next argument. The value can be anything in each of them, because it is not looked at before it is
taken. What is read off an argument list up to some place does not depend on what comes after it,
unless two dashes have ended the reading or a flag still lacks its value. Main statements: reading
goes on after a place like any other reading (`ofArguments_append`), and wherever a setting is read,
it was written in one of the four ways (`exists_writing`).
-/

namespace AsmDialect.CommandLine

/-- A way to give a flag its value. -/
structure Writing where
  /-- Whether there are two dashes before the name of the flag, or one. -/
  doubled : Bool
  /-- Whether the value comes behind an equals sign, or as the next argument. -/
  joined : Bool
deriving DecidableEq, Repr

namespace Writing

/-- The dashes before the name of a flag. -/
def dashes (w : Writing) : String := if w.doubled then "--" else "-"

/-- The arguments that give a flag its value. -/
def arguments (w : Writing) (f : Flag) (value : String) : List String :=
  if w.joined then [w.dashes ++ spelling f ++ "=" ++ value] else [w.dashes ++ spelling f, value]

end Writing

/-- Whether arguments are read as items from first to last and reading goes on after them. -/
inductive IsRead : List String → List Item → Prop
  | nil : IsRead [] []
  | setting {args : List String} {items : List Item} (w : Writing) (f : Flag) (value : String)
      (h : IsRead args items) : IsRead (w.arguments f value ++ args) (.setting f value :: items)
  | unknown {arg name : String} {value? : Option String} {args : List String} {items : List Item}
      (hs : Shape.of arg = .named name value?) (hn : (ofSpelling? name : Option Flag) = none)
      (h : IsRead args items) : IsRead (arg :: args) (.unknown name :: items)
  | positional {arg : String} {args : List String} {items : List Item}
      (hs : Shape.of arg = .positional) (h : IsRead args items) :
      IsRead (arg :: args) (.positional arg :: items)

/-! ## Dashes -/

theorem Writing.toList_dashes (w : Writing) :
    w.dashes.toList = if w.doubled then ['-', '-'] else ['-'] := by
  unfold dashes
  cases w.doubled <;> rfl

/-- A name that does not start with a dash itself is what is left without the dashes. -/
theorem Writing.dashed?_append (w : Writing) {body : List Char} (h : body.head? ≠ some '-') :
    dashed? (w.dashes.toList ++ body) = some body := by
  rw [w.toList_dashes]
  cases w.doubled with
  | true => rfl
  | false =>
    cases body with
    | nil => rfl
    | cons c cs =>
      have hc : c ≠ '-' := fun hc => h (congrArg some hc)
      simp [dashed?, hc]

/-- Dashes that are taken off are those of a writing, and it may be a joined one or not. -/
theorem exists_dashes {cs body : List Char} (h : dashed? cs = some body) (joined : Bool) :
    ∃ w : Writing, w.joined = joined ∧ cs = w.dashes.toList ++ body := by
  simp only [Writing.toList_dashes]
  unfold dashed? at h
  split at h
  · cases h
    exact ⟨⟨true, joined⟩, rfl, rfl⟩
  · cases h
    exact ⟨⟨false, joined⟩, rfl, rfl⟩
  · cases h

/-! ## Names -/

/-- What comes behind the name of a flag in the same argument. -/
def attached : Option String → List Char
  | none => []
  | some value => '=' :: value.toList

theorem exists_attached (body : List Char) :
    ∃ (name : List Char) (value? : Option String),
      '=' ∉ name ∧ body = name ++ attached value? := by
  by_cases h : '=' ∈ body
  · obtain ⟨name, value, rfl, hname⟩ := List.eq_append_cons_of_mem h
    exact ⟨name, some (String.ofList value), hname, by simp [attached]⟩
  · exact ⟨body, none, h, by simp [attached]⟩

theorem shape_of_no_name {arg : String} {value? : Option String}
    (h : dashed? arg.toList = some (attached value?)) (name : String) (v? : Option String) :
    Shape.of arg ≠ .named name v? := by
  unfold Shape.of
  split
  · nofun
  · rw [h]
    cases value? <;> nofun

theorem shape_of_name {arg : String} {name : List Char} {value? : Option String} (hne : name ≠ [])
    (heq : '=' ∉ name) (h : dashed? arg.toList = some (name ++ attached value?)) :
    Shape.of arg = .named (String.ofList name) value? := by
  have hterminator : arg ≠ "--" := by
    rintro rfl
    have hnil : name ++ attached value? = [] := (Option.some.inj h).symm
    exact hne (List.append_eq_nil_iff.1 hnil).1
  have hpos : ∀ c ∈ name, (c != '=') = true := by
    intro c hc
    rw [bne_iff_ne]
    rintro rfl
    exact heq hc
  rw [Shape.of, if_neg hterminator, h]
  simp only [List.takeWhile_append_of_pos hpos, List.dropWhile_append_of_pos hpos]
  obtain ⟨c, cs, rfl⟩ := List.exists_cons_of_ne_nil hne
  cases value? with
  | none => simp only [attached, List.takeWhile_nil, List.dropWhile_nil, List.append_nil]
  | some value =>
    have htake : ('=' :: value.toList).takeWhile (· != '=') = [] := rfl
    have hdrop : ('=' :: value.toList).dropWhile (· != '=') = '=' :: value.toList := rfl
    simp only [attached, htake, hdrop, List.append_nil, String.ofList_toList]

/-- **Named arguments**: dashes, a name, and a value behind the first equals sign if there is
one. -/
theorem dashed?_of_shape {arg name : String} {value? : Option String}
    (h : Shape.of arg = .named name value?) :
    dashed? arg.toList = some (name.toList ++ attached value?) := by
  cases hbody : dashed? arg.toList with
  | none =>
    unfold Shape.of at h
    rw [hbody] at h
    split at h
    · cases h
    · cases h
  | some body =>
    obtain ⟨n, v?, heq, rfl⟩ := exists_attached body
    by_cases hne : n = []
    · subst hne
      exact absurd h (shape_of_no_name hbody name value?)
    · rw [shape_of_name hne heq hbody] at h
      cases h
      rw [String.toList_ofList]

/-! ## Settings -/

theorem shape_of_written {arg : String} (w : Writing) (f : Flag) (value? : Option String)
    (h : arg.toList = w.dashes.toList ++ ((spelling f).toList ++ attached value?)) :
    Shape.of arg = .named (spelling f) value? := by
  have hne : (spelling f).toList ≠ [] := by cases f <;> decide
  have heq : '=' ∉ (spelling f).toList := by cases f <;> decide
  have hfirst : (spelling f).toList.head? = some 'i' := by cases f <;> decide
  have hhead : ((spelling f).toList ++ attached value?).head? ≠ some '-' := by
    rw [List.head?_append, hfirst, Option.some_or]
    decide
  rw [shape_of_name hne heq (h ▸ w.dashed?_append hhead), String.ofList_toList]

theorem ofArguments_arguments (w : Writing) (f : Flag) (value : String) (rest : List String) :
    Item.ofArguments (w.arguments f value ++ rest) = .setting f value :: Item.ofArguments rest := by
  unfold Writing.arguments
  split
  · have hs : Shape.of (w.dashes ++ spelling f ++ "=" ++ value) = .named (spelling f) (some value) :=
      shape_of_written w f (some value) (by simp [attached])
    rw [List.singleton_append, Item.ofArguments, hs]
    simp only [ofSpelling?_spelling]
  · have hs : Shape.of (w.dashes ++ spelling f) = .named (spelling f) none :=
      shape_of_written w f none (by simp [attached])
    rw [List.cons_append, List.singleton_append, Item.ofArguments, hs]
    simp only [ofSpelling?_spelling]

/-- A flag takes two dashes for its value, where they would end the reading otherwise. -/
example : Item.ofArguments ["-isaguess_input_file", "--", "--isaguess_input_file=a=b"] =
    [.setting .inputFile "--", .setting .inputFile "a=b"] := by decide

theorem eq_arguments_of_joined {arg name value : String} {f : Flag}
    (hn : ofSpelling? name = some f) (hs : Shape.of arg = .named name (some value)) :
    ∃ w : Writing, [arg] = w.arguments f value := by
  obtain rfl := ofSpelling?_eq_some_iff.1 hn
  obtain ⟨w, hw, harg⟩ := exists_dashes (dashed?_of_shape hs) true
  refine ⟨w, ?_⟩
  rw [Writing.arguments, hw, if_pos rfl, List.singleton_inj, ← String.toList_inj, harg]
  simp [attached]

theorem eq_arguments_of_separate {arg name : String} {f : Flag} (hn : ofSpelling? name = some f)
    (hs : Shape.of arg = .named name none) (value : String) :
    ∃ w : Writing, [arg, value] = w.arguments f value := by
  obtain rfl := ofSpelling?_eq_some_iff.1 hn
  obtain ⟨w, hw, harg⟩ := exists_dashes (dashed?_of_shape hs) false
  refine ⟨w, ?_⟩
  have heq : arg = w.dashes ++ spelling f := by
    rw [← String.toList_inj, harg]
    simp [attached]
  rw [Writing.arguments, hw, heq]
  rfl

/-! ## Places in an argument list -/

namespace IsRead

theorem single_setting (w : Writing) (f : Flag) (value : String) :
    IsRead (w.arguments f value) [.setting f value] := by
  simpa using IsRead.setting w f value .nil

theorem eq_arguments {args : List String} {f : Flag} {value : String}
    (h : IsRead args [.setting f value]) : ∃ w : Writing, args = w.arguments f value := by
  generalize hitems : [Item.setting f value] = items at h
  cases h with
  | setting w f' value' hnil =>
    cases hitems
    cases hnil
    exact ⟨w, List.append_nil _⟩
  | _ => cases hitems

theorem append {args more : List String} {items more' : List Item} (h : IsRead args items)
    (h' : IsRead more more') : IsRead (args ++ more) (items ++ more') := by
  induction h with
  | nil => exact h'
  | setting w f value _ ih =>
    rw [List.append_assoc]
    exact .setting w f value ih
  | unknown hs hn _ ih => exact .unknown hs hn ih
  | positional hs _ ih => exact .positional hs ih

/-- **Reading goes on** after what was read. -/
theorem ofArguments_append {before : List String} {items : List Item} (h : IsRead before items)
    (after : List String) :
    Item.ofArguments (before ++ after) = items ++ Item.ofArguments after := by
  induction h with
  | nil => rfl
  | setting w f value _ ih => rw [List.append_assoc, ofArguments_arguments, ih, List.cons_append]
  | unknown hs hn _ ih =>
    rw [List.cons_append, Item.ofArguments, hs]
    simp only [hn]
    rw [ih, List.cons_append]
  | positional hs _ ih =>
    rw [List.cons_append, Item.ofArguments, hs]
    simp only
    rw [ih, List.cons_append]

end IsRead

/-- Unless there is no setting to come, an item is read first and reading goes on. -/
theorem exists_first (args : List String) :
    (∀ f value, .setting f value ∉ Item.ofArguments args) ∨
      ∃ (first : List String) (item : Item) (after : List String),
        IsRead first [item] ∧ first ≠ [] ∧ args = first ++ after := by
  fun_cases Item.ofArguments args with
  | case1 => exact .inl (by simp)
  | case2 => exact .inl (by simp)
  | case3 arg rest hs => exact .inr ⟨[arg], _, rest, .positional hs .nil, by simp, rfl⟩
  | case4 arg rest name value? hn hs =>
    exact .inr ⟨[arg], _, rest, .unknown hs hn .nil, by simp, rfl⟩
  | case5 arg rest name f value hn hs =>
    obtain ⟨w, hw⟩ := eq_arguments_of_joined hn hs
    have hread : IsRead [arg] [.setting f value] := hw ▸ .single_setting w f value
    exact .inr ⟨[arg], _, rest, hread, by simp, rfl⟩
  | case6 => exact .inl (by simp)
  | case7 arg name f hn value rest hs =>
    obtain ⟨w, hw⟩ := eq_arguments_of_separate hn hs value
    have hread : IsRead [arg, value] [.setting f value] := hw ▸ .single_setting w f value
    exact .inr ⟨[arg, value], _, rest, hread, by simp, rfl⟩

/-- **Where a setting is read**, it was written in one of the four ways, and all that comes before it
was read. -/
theorem exists_writing {args : List String} {l r : List Item} {f : Flag} {value : String}
    (h : Item.ofArguments args = l ++ .setting f value :: r) :
    ∃ (before : List String) (w : Writing) (after : List String), IsRead before l ∧
      args = before ++ (w.arguments f value ++ after) ∧ Item.ofArguments after = r := by
  -- by the length of the list, since an item takes up one argument or two
  induction hk : args.length using Nat.strongRecOn generalizing args l with
  | _ k ih =>
    subst hk
    rcases exists_first args with hnone | ⟨first, item, after, hfirst, hne, rfl⟩
    · exact absurd (by simp [h]) (hnone f value)
    · rw [hfirst.ofArguments_append, List.singleton_append] at h
      cases l with
      | nil =>
        obtain ⟨rfl, hr⟩ := List.cons.inj h
        obtain ⟨w, rfl⟩ := hfirst.eq_arguments
        exact ⟨[], w, after, .nil, rfl, hr⟩
      | cons item' l =>
        obtain ⟨rfl, htail⟩ := List.cons.inj h
        have hpos := List.length_pos_iff.2 hne
        obtain ⟨before, w, rest, hl, rfl, hr⟩ :=
          ih after.length (by rw [List.length_append]; omega) htail rfl
        exact ⟨first ++ before, w, rest, hfirst.append hl, by rw [List.append_assoc], hr⟩

end AsmDialect.CommandLine
