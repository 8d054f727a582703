import AsmDialect.Proofs.Source.Preparation
import AsmDialect.Source.Text
/-!
# Literals by their quotes

A source is freed of its literals in one pass over the bytes. What that comes to is told here in two
ways that know nothing of the pass. One takes the leftmost literal out, then the leftmost one of
what follows it, until there is none (`Freed`). The other looks at the pieces into which all quotes
cut the source, and keeps those with even numbers (`outer`). Main statements: either way leads to
the source without its literals (`freed_iff`, `withoutLiterals_of_isCut`); both together with what
follows from them (`withoutLiterals_by_quotes`).
-/

namespace AsmDialect.Source

/-! ## From left to right -/

/-- Whether a source has a literal with the given contents between the given parts. -/
structure IsMatch (s a c r : Source) : Prop where
  eq_append : s = a ++ quote :: (c ++ quote :: r)
  quote_not_mem : quote ∉ c

/-- Whether literals are taken out of a source until there are no more, the leftmost one first and
then those of what follows it. -/
inductive Freed : Source → Source → Prop
  | done {s : Source} (h : ∀ a c r, ¬ IsMatch s a c r) : Freed s s
  | next {s a c r t : Source} (h : IsMatch s a c r)
      (hleft : ∀ a' c' r', IsMatch s a' c' r' → a.length ≤ a'.length) (hr : Freed r t) :
      Freed s (a ++ t)

theorem exists_isMatch {b : Source} (hb : quote ∈ b) (a : Source) :
    ∃ c r, IsMatch (a ++ quote :: b) a c r := by
  obtain ⟨c, r, rfl, hc⟩ := List.eq_append_cons_of_mem hb
  exact ⟨c, r, rfl, hc⟩

/-- No quote stands before the leftmost literal, or a literal would open there. -/
theorem quote_not_mem_of_leftmost {s a c r : Source} (h : IsMatch s a c r)
    (hleft : ∀ a' c' r', IsMatch s a' c' r' → a.length ≤ a'.length) : quote ∉ a := by
  intro ha
  obtain ⟨a', b, rfl⟩ := List.append_of_mem ha
  have hs : s = a' ++ quote :: (b ++ quote :: (c ++ quote :: r)) := by
    simp [h.eq_append]
  have hmem : quote ∈ b ++ quote :: (c ++ quote :: r) := by simp
  obtain ⟨c', r', hmatch⟩ := exists_isMatch hmem a'
  rw [← hs] at hmatch
  have hle := hleft a' c' r' hmatch
  simp only [List.length_append, List.length_cons] at hle
  omega

theorem leftmost_of_quote_not_mem {s a c r : Source} (h : IsMatch s a c r) (ha : quote ∉ a)
    {a' c' r' : Source} (h' : IsMatch s a' c' r') : a.length ≤ a'.length := by
  have heq := h.eq_append.symm.trans h'.eq_append
  rcases List.append_eq_append_iff.1 heq with ⟨m, rfl, -⟩ | ⟨m, rfl, hm⟩
  · simp
  · cases m with
    | nil => simp
    | cons x m =>
      have hx : quote = x := (List.cons.inj hm).1
      exact absurd (by simp [hx]) ha

/-- Where there is a literal, there is one with no quote before it. -/
theorem exists_first_isMatch {s a c r : Source} (h : IsMatch s a c r) :
    ∃ a' c' r', IsMatch s a' c' r' ∧ quote ∉ a' := by
  have hmem : quote ∈ s := by simp [h.eq_append]
  obtain ⟨a', b, hs, ha'⟩ := List.eq_append_cons_of_mem hmem
  have hcount : quotes a' + (quotes b + 1) = quotes a + (quotes c + (quotes r + 1) + 1) := by
    have heq := congrArg quotes (hs.symm.trans h.eq_append)
    simpa only [quotes_append, quotes_cons_quote] using heq
  rw [quotes_of_not_mem ha'] at hcount
  have hb : quote ∈ b := by
    apply List.count_pos_iff.1
    change 0 < quotes b
    omega
  obtain ⟨c', r', hmatch⟩ := exists_isMatch hb a'
  exact ⟨a', c', r', hs ▸ hmatch, ha'⟩

theorem withoutLiterals_of_isMatch {s a c r : Source} (h : IsMatch s a c r) (ha : quote ∉ a) :
    s.withoutLiterals = a ++ r.withoutLiterals := by
  rw [h.eq_append, withoutLiterals_append (.inl (even_quotes_of_not_mem ha)),
    withoutLiterals_of_not_mem ha, withoutLiterals_literal h.quote_not_mem]

theorem withoutLiterals_of_no_match {s : Source} (h : ∀ a c r, ¬ IsMatch s a c r) :
    s.withoutLiterals = s := by
  by_cases hq : quote ∈ s
  · obtain ⟨a, b, rfl, ha⟩ := List.eq_append_cons_of_mem hq
    have hb : quote ∉ b := by
      intro hb
      obtain ⟨c, r, hmatch⟩ := exists_isMatch hb a
      exact h a c r hmatch
    rw [withoutLiterals_append (.inl (even_quotes_of_not_mem ha)), withoutLiterals_of_not_mem ha,
      withoutLiterals_open hb]
  · exact withoutLiterals_of_not_mem hq

theorem withoutLiterals_of_freed {s t : Source} (h : Freed s t) : s.withoutLiterals = t := by
  induction h with
  | done h => exact withoutLiterals_of_no_match h
  | next h hleft _ ih =>
    rw [withoutLiterals_of_isMatch h (quote_not_mem_of_leftmost h hleft), ih]

theorem freed_withoutLiterals (s : Source) : Freed s s.withoutLiterals := by
  -- by length: what follows a literal is shorter than the source it is in
  induction hk : s.length using Nat.strongRecOn generalizing s with
  | _ k ih =>
    subst hk
    by_cases hmatch : ∃ a c r, IsMatch s a c r
    · obtain ⟨_, _, _, hsome⟩ := hmatch
      obtain ⟨a, c, r, h, ha⟩ := exists_first_isMatch hsome
      have hlt : r.length < s.length := by
        simp only [h.eq_append, List.length_append, List.length_cons]
        omega
      rw [withoutLiterals_of_isMatch h ha]
      exact .next h (fun _ _ _ => leftmost_of_quote_not_mem h ha) (ih r.length hlt r rfl)
    · have hnone : ∀ a c r, ¬ IsMatch s a c r := fun a c r h => hmatch ⟨a, c, r, h⟩
      rw [withoutLiterals_of_no_match hnone]
      exact .done hnone

/-- **The leftmost literal first**: this leads to the source without its literals. -/
theorem freed_iff {s t : Source} : Freed s t ↔ s.withoutLiterals = t :=
  ⟨withoutLiterals_of_freed, fun h => h ▸ freed_withoutLiterals s⟩

/-! ## All quotes at once -/

/-- Whether a source consists of the given pieces, at least one, with a quote between two of them
and none inside. -/
structure IsCut (ps : List Source) (s : Source) : Prop where
  ne_nil : ps ≠ []
  quote_not_mem : ∀ p ∈ ps, quote ∉ p
  joined : [quote].intercalate ps = s

/-- The pieces with even numbers, counted from zero, one after the other. -/
def outer (ps : List Source) : Source :=
  (List.range ((ps.length + 1) / 2)).flatMap fun k => ps.getD (2 * k) []

theorem quote_not_mem_of_mem_pieces {s : Source} : ∀ p ∈ pieces s, quote ∉ p := by
  induction s with
  | nil => simp [pieces_nil]
  | cons b s ih =>
    by_cases hb : b = quote
    · subst hb
      rw [pieces_quote_cons]
      exact List.forall_mem_cons.2 ⟨List.not_mem_nil, ih⟩
    · obtain ⟨p, ps, hp⟩ := List.exists_cons_of_ne_nil (pieces_ne_nil s)
      rw [hp, List.forall_mem_cons] at ih
      rw [pieces_cons hb, hp, List.modifyHead_cons, List.forall_mem_cons, List.mem_cons, not_or]
      exact ⟨⟨Ne.symm hb, ih.1⟩, ih.2⟩

theorem isCut_pieces (s : Source) : IsCut (pieces s) s :=
  ⟨pieces_ne_nil s, quote_not_mem_of_mem_pieces, List.intercalate_splitOn quote⟩

theorem pieces_of_isCut {ps : List Source} {s : Source} (h : IsCut ps s) : pieces s = ps := by
  rw [← h.joined]
  exact List.splitOn_intercalate quote h.quote_not_mem h.ne_nil

theorem length_pieces (s : Source) : (pieces s).length = quotes s + 1 := by
  induction s with
  | nil => rfl
  | cons b s ih =>
    by_cases hb : b = quote
    · subst hb
      rw [pieces_quote_cons, quotes_cons_quote, List.length_cons, ih]
    · rw [pieces_cons hb, quotes_cons_of_ne hb, List.length_modifyHead, ih]

theorem outer_cons_cons (p q : Source) (ps : List Source) :
    outer (p :: q :: ps) = p ++ outer ps := by
  have hlength : ((p :: q :: ps).length + 1) / 2 = (ps.length + 1) / 2 + 1 := by
    simp only [List.length_cons]
    omega
  rw [outer, hlength, List.range_succ_eq_map, List.flatMap_cons, List.flatMap_map]
  rfl

/-- What is outside of literals, by numbers: the pieces with even ones, and if there is a quote more
than pairs of them, the last piece with the quote before it. -/
theorem outside_eq : ∀ {ps : List Source} {n : Nat}, ps.length = n + 1 →
    outside ps = outer ps ++ if Even n then [] else quote :: ps.getD n []
  | [p], 0, _ => by simp [outside, outer]
  | [p, q], 1, _ => by simp [outside, outer]
  | p :: q :: r :: ps, n + 2, h => by
    have ih : outside (r :: ps) =
        outer (r :: ps) ++ if Even n then [] else quote :: (r :: ps).getD n [] :=
      outside_eq (by simpa using h)
    have hlast : (p :: q :: r :: ps).getD (n + 2) [] = (r :: ps).getD n [] := rfl
    have heven : Even (n + 2) ↔ Even n := by
      simp only [Nat.even_iff]
      omega
    rw [outside, ih, outer_cons_cons, List.append_assoc, hlast]
    simp only [heven]

theorem quote_not_mem_getD {ps : List Source} (h : ∀ p ∈ ps, quote ∉ p) (k : Nat) :
    quote ∉ ps.getD k [] := by
  rw [List.getD_eq_getElem?_getD]
  cases hp : ps[k]? with
  | none => simp
  | some p => exact h p (List.mem_of_getElem? hp)

theorem quote_not_mem_outer {ps : List Source} (h : ∀ p ∈ ps, quote ∉ p) : quote ∉ outer ps := by
  intro hmem
  obtain ⟨k, -, hk⟩ := List.mem_flatMap.1 hmem
  exact quote_not_mem_getD h (2 * k) hk

/-- **Pieces with even numbers** are what stays, and a quote without a partner stays with the piece
after it. -/
theorem withoutLiterals_of_isCut {ps : List Source} {s : Source} (h : IsCut ps s) :
    s.withoutLiterals =
      outer ps ++ if Even (quotes s) then [] else quote :: ps.getD (quotes s) [] := by
  have hlength := length_pieces s
  rw [withoutLiterals_eq, pieces_of_isCut h] at *
  exact outside_eq hlength

/-- At most one quote stays, the one that has no partner. -/
theorem quotes_withoutLiterals (s : Source) : quotes s.withoutLiterals = quotes s % 2 := by
  have hnone := quote_not_mem_of_mem_pieces (s := s)
  rw [withoutLiterals_of_isCut (isCut_pieces s), quotes_append,
    quotes_of_not_mem (quote_not_mem_outer hnone)]
  split
  next heven =>
    rw [Nat.even_iff.1 heven]
    rfl
  next hodd =>
    rw [Nat.not_even_iff.1 hodd, quotes_cons_quote, quotes_of_not_mem (quote_not_mem_getD hnone _)]

/-- **Quotes pair up from left to right.** Taking out the leftmost literal each time leads to the
source without its literals. There is one way to cut a source into pieces without quotes. With an
even number of quotes the pieces with even numbers stay, with nothing between them; with an odd
number the last piece stays too, after the last quote. So one quote stays or none. What is inside a
literal goes with it, line ends and NULs among the rest, and after an even number of quotes a source
can be cut. -/
theorem withoutLiterals_by_quotes :
    (∀ s t : Source, Freed s t ↔ s.withoutLiterals = t) ∧
      (∀ s : Source, ∃! ps : List Source, IsCut ps s) ∧
      (∀ (ps : List Source) (s : Source), IsCut ps s → ps.length = quotes s + 1 ∧
        (Even (quotes s) → s.withoutLiterals = outer ps) ∧
        (¬ Even (quotes s) →
          s.withoutLiterals = outer ps ++ quote :: ps.getD (quotes s) [])) ∧
      (∀ s : Source, quotes s.withoutLiterals = quotes s % 2) ∧
      (∀ a c r : Source, Even (quotes a) → quote ∉ c →
        (a ++ quote :: (c ++ quote :: r)).withoutLiterals =
          a.withoutLiterals ++ r.withoutLiterals) ∧
      ∀ x y : Source, Even (quotes x) →
        (x ++ y).withoutLiterals = x.withoutLiterals ++ y.withoutLiterals := by
  refine ⟨fun s t => freed_iff, ?_, ?_, quotes_withoutLiterals, ?_, ?_⟩
  · intro s
    refine ⟨pieces s, isCut_pieces s, fun ps h => ?_⟩
    exact (pieces_of_isCut h).symm
  · intro ps s h
    have hstays := withoutLiterals_of_isCut h
    refine ⟨?_, ?_, ?_⟩
    · rw [← pieces_of_isCut h]
      exact length_pieces s
    · intro heven
      rw [hstays, if_pos heven, List.append_nil]
    · intro hodd
      rw [hstays, if_neg hodd]
  · intro a c r ha hc
    rw [withoutLiterals_append (.inl ha), withoutLiterals_literal hc]
  · intro x y hx
    exact withoutLiterals_append (.inl hx)

/-- Three quotes: a literal with a line end and a NUL inside, and a quote that nothing closes. -/
theorem withoutLiterals_by_quotes_of_three :
    let a := ofText "mov "
    let c := ofText "vldr\n" ++ [nul]
    let m := ofText "ax"
    let e := ofText " ldr"
    let closed := a ++ quote :: (c ++ quote :: m)
    let s := closed ++ quote :: e
    IsCut [a, c, m] closed ∧ Even (quotes closed) ∧ closed.withoutLiterals = a ++ m ∧
      IsCut [a, c, m, e] s ∧ ¬ Even (quotes s) ∧ s.withoutLiterals = a ++ m ++ quote :: e ∧
      Even (quotes a) ∧ quote ∉ c ∧
      closed.withoutLiterals = a.withoutLiterals ++ m.withoutLiterals ∧
      s.withoutLiterals = closed.withoutLiterals ++ withoutLiterals (quote :: e) := by
  intro a c m e closed s
  obtain ⟨-, -, hpieces, -, hinside, hcut⟩ := withoutLiterals_by_quotes
  have hclosed : IsCut [a, c, m] closed := ⟨by decide, by decide, by decide⟩
  have heven : Even (quotes closed) := by decide
  have hs : IsCut [a, c, m, e] s := ⟨by decide, by decide, by decide⟩
  have hodd : ¬ Even (quotes s) := by decide
  have ha : Even (quotes a) := by decide
  have hc : quote ∉ c := by decide
  have houter : outer [a, c, m] = a ++ m := by decide
  have houter' : outer [a, c, m, e] ++ quote :: [a, c, m, e].getD (quotes s) [] =
      a ++ m ++ quote :: e := by decide
  refine ⟨hclosed, heven, ?_, hs, hodd, ?_, ha, hc, hinside a c m ha hc, hcut _ _ heven⟩
  · rw [(hpieces _ _ hclosed).2.1 heven, houter]
  · rw [(hpieces _ _ hs).2.2 hodd, houter']

end AsmDialect.Source
