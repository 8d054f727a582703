import AsmDialect.Proofs.Source.Edits
import AsmDialect.Proofs.Source.NormalForm
/-!
# The order of the stages

A source is cut at its first NUL, then freed of its literals, and put into small letters last. The
small letters can come in any place. The other two stages can change places unless the first NUL is
where only the cut keeps a literal from being closed: a quote is open there, and one comes behind
it. In that case the quote counts as code with all that follows it up to the NUL, while the other
order would take the literal out and read on behind it. Main statements: where the two stages can
change places (`withoutLiterals_beforeNul`), what either order leaves where they cannot
(`EndsInLiteral.withoutLiterals_eq`, `EndsInLiteral.beforeNul_eq`), and all of it together
(`stages_in_other_orders`).
-/

namespace AsmDialect.Source

/-- Whether the first NUL of a source has the given bytes before it and behind it. -/
structure HasEnd (s a r : Source) : Prop where
  eq_append : s = a ++ nul :: r
  nul_not_mem : nul ∉ a

/-- Whether no literal is cut in two at the end of a source: there is no NUL, or the first one has
an even number of quotes before it, or no quote behind it. -/
def EndsInNoLiteral (s : Source) : Prop :=
  nul ∉ s ∨ ∃ a r, HasEnd s a r ∧ (Even (quotes a) ∨ quote ∉ r)

/-- Whether a source has a quote open at its first NUL, with the given bytes before and after the
quote, and with a quote among those behind the NUL. -/
structure EndsInLiteral (s a c r : Source) : Prop where
  eq_append : s = a ++ quote :: (c ++ nul :: r)
  before : IsSegment a
  contents : IsContents c
  quote_mem : quote ∈ r

/-! ## The first NUL -/

namespace HasEnd

variable {s a r : Source}

theorem beforeNul_eq (h : HasEnd s a r) : s.beforeNul = a := by
  rw [h.eq_append, beforeNul_append_nul_cons, beforeNul_of_not_mem h.nul_not_mem]

theorem prepared_eq (h : HasEnd s a r) : s.prepared = a.prepared := by
  rw [prepared, prepared, h.beforeNul_eq, beforeNul_of_not_mem h.nul_not_mem]

/-- There is one first NUL only. -/
theorem unique {a' r' : Source} (h : HasEnd s a r) (h' : HasEnd s a' r') : a' = a ∧ r' = r := by
  obtain rfl : a' = a := h'.beforeNul_eq.symm.trans h.beforeNul_eq
  have heq : a' ++ nul :: r' = a' ++ nul :: r := h'.eq_append.symm.trans h.eq_append
  exact ⟨rfl, (List.cons.inj (List.append_cancel_left heq)).2⟩

end HasEnd

theorem exists_hasEnd {s : Source} (h : nul ∈ s) : ∃ a r, HasEnd s a r := by
  obtain ⟨a, r, hs, ha⟩ := List.eq_append_cons_of_mem h
  exact ⟨a, r, hs, ha⟩

theorem nul_not_mem_withoutLiterals {s : Source} (h : nul ∉ s) : nul ∉ s.withoutLiterals :=
  fun hmem => h ((withoutLiterals_sublist s).subset hmem)

/-! ## Ends in no literal -/

/-- A NUL that is in no literal stays where it is when the literals are taken out. -/
theorem withoutLiterals_append_nul {a r : Source} (h : Even (quotes a) ∨ quote ∉ r) :
    (a ++ nul :: r).withoutLiterals = a.withoutLiterals ++ nul :: r.withoutLiterals := by
  have hne : nul ≠ quote := by decide
  have hcut : Even (quotes a) ∨ quote ∉ nul :: r :=
    h.imp id fun hr => List.not_mem_cons_of_ne_of_not_mem hne.symm hr
  have hnul : withoutLiterals (nul :: r) = nul :: r.withoutLiterals := by
    simp only [withoutLiterals, withoutLiterals.go, hne, if_false]
  rw [withoutLiterals_append hcut, hnul]

/-- **Cut first or last**: it makes no difference where no literal is cut in two. -/
theorem withoutLiterals_beforeNul {s : Source} (h : EndsInNoLiteral s) :
    s.beforeNul.withoutLiterals = s.withoutLiterals.beforeNul := by
  rcases h with hn | ⟨a, r, hend, hcut⟩
  · rw [beforeNul_of_not_mem hn, beforeNul_of_not_mem (nul_not_mem_withoutLiterals hn)]
  · have hkept : HasEnd s.withoutLiterals a.withoutLiterals r.withoutLiterals := by
      refine ⟨?_, nul_not_mem_withoutLiterals hend.nul_not_mem⟩
      rw [hend.eq_append, withoutLiterals_append_nul hcut]
    rw [hend.beforeNul_eq, hkept.beforeNul_eq]

/-! ## Ends in a literal -/

namespace EndsInLiteral

variable {s a c r : Source}

theorem hasEnd (h : EndsInLiteral s a c r) : HasEnd s (a ++ quote :: c) r := by
  have hne : nul ≠ quote := by decide
  have hnul : nul ∉ a ++ quote :: c :=
    not_mem_append_cons_iff.2 ⟨h.before.nul_not_mem, hne, h.contents.nul_not_mem⟩
  exact ⟨by simp [h.eq_append], hnul⟩

theorem odd_quotes (h : EndsInLiteral s a c r) : ¬ Even (quotes (a ++ quote :: c)) := by
  rw [quotes_append, quotes_cons_quote, quotes_of_not_mem h.contents.quote_not_mem,
    Nat.even_add_one]
  exact not_not_intro h.before.even_quotes

/-- The quote that is open at the end stays, with what follows it. -/
theorem withoutLiterals_eq (h : EndsInLiteral s a c r) :
    s.beforeNul.withoutLiterals = a.withoutLiterals ++ quote :: c := by
  rw [h.hasEnd.beforeNul_eq, withoutLiterals_append (.inl h.before.even_quotes),
    withoutLiterals_open h.contents.quote_not_mem]

/-- The other order goes on behind the quote that closes the literal. -/
theorem beforeNul_eq (h : EndsInLiteral s a c r) {m t : Source} (hr : r = m ++ quote :: t)
    (hm : quote ∉ m) :
    s.withoutLiterals.beforeNul = a.withoutLiterals ++ t.withoutLiterals.beforeNul := by
  have hne : quote ≠ nul := by decide
  have hs : s = a ++ quote :: ((c ++ nul :: m) ++ quote :: t) := by
    simp [h.eq_append, hr]
  have hcontents : quote ∉ c ++ nul :: m :=
    not_mem_append_cons_iff.2 ⟨h.contents.quote_not_mem, hne, hm⟩
  rw [hs, withoutLiterals_append (.inl h.before.even_quotes), withoutLiterals_literal hcontents,
    beforeNul_append (nul_not_mem_withoutLiterals h.before.nul_not_mem)]

/-- What follows the open quote is read for words like any code, from its first separator on. -/
theorem tokens_eq (h : EndsInLiteral s a c r) {m u : Source} {b : UInt8}
    (hb : isSeparator b = true) (hc : c = m ++ b :: u) :
    s.prepared.tokens = (a ++ quote :: m).prepared.tokens ++ u.prepared.tokens := by
  have hgap : IsGap [b] := ⟨List.cons_ne_nil b [], by simpa using hb⟩
  have hparts : a ++ quote :: c = (a ++ quote :: m) ++ ([b] ++ u) := by simp [hc]
  have hnul : nul ∉ a ++ quote :: m := by
    intro hmem
    apply h.hasEnd.nul_not_mem
    rw [hparts]
    exact List.mem_append_left _ hmem
  have hcontents : quote ∉ m ++ b :: u := hc ▸ h.contents.quote_not_mem
  have hquote : quote ∉ u.beforeNul := fun hmem =>
    (not_mem_append_cons_iff.1 hcontents).2.2 (List.takeWhile_subset _ hmem)
  rw [h.hasEnd.prepared_eq, hparts, tokens, words_prepared_append hnul (.inr hquote) hgap,
    List.map_append]
  rfl

end EndsInLiteral

/-- An end that is in no literal, or else in one. -/
theorem not_endsInNoLiteral_iff {s : Source} :
    ¬ EndsInNoLiteral s ↔ ∃ a c r, EndsInLiteral s a c r := by
  constructor
  · intro h
    have hmem : nul ∈ s := by
      by_contra hn
      exact h (.inl hn)
    obtain ⟨a, r, hend⟩ := exists_hasEnd hmem
    have hcut : ¬ (Even (quotes a) ∨ quote ∉ r) := fun hcut => h (.inr ⟨a, r, hend, hcut⟩)
    rw [not_or, not_not] at hcut
    obtain ⟨l, c, rfl, hl, hc⟩ := exists_open_quote hcut.1
    obtain ⟨hnl, -, hnc⟩ := not_mem_append_cons_iff.1 hend.nul_not_mem
    exact ⟨l, c, r, by simp [hend.eq_append], ⟨hnl, hl⟩, ⟨hnc, hc⟩, hcut.2⟩
  · rintro ⟨a, c, r, h⟩ (hn | ⟨a', r', hend, hcut⟩)
    · exact hn (by simp [h.eq_append])
    · obtain ⟨rfl, rfl⟩ := h.hasEnd.unique hend
      exact hcut.elim h.odd_quotes (not_not_intro h.quote_mem)

/-! ## All orders -/

/-- **The stages in other orders.** Small letters can be made before or after either of the other
stages. Those two can change places where no literal is cut in two at the end. Anywhere else a quote
is open at the first NUL, and one behind the NUL would close it. Then what was cut off first leaves
the open quote with what follows it, and this is code: from its first separator on its words are
words of the source. Nothing behind the NUL shows. The other order would go on behind the quote that
closes the literal, and could come to the same only by what is there. -/
theorem stages_in_other_orders :
    (∀ s : Source, s.withoutLiterals.lower = s.lower.withoutLiterals) ∧
      (∀ s : Source, s.beforeNul.lower = s.lower.beforeNul) ∧
      (∀ s : Source, EndsInNoLiteral s →
        s.beforeNul.withoutLiterals = s.withoutLiterals.beforeNul) ∧
      (∀ s : Source, ¬ EndsInNoLiteral s ↔ ∃ a c r, EndsInLiteral s a c r) ∧
      ∀ s a c r : Source, EndsInLiteral s a c r →
        s.beforeNul.withoutLiterals = a.withoutLiterals ++ quote :: c ∧
        (∀ (m u : Source) (b : UInt8), isSeparator b = true → c = m ++ b :: u →
          s.prepared.tokens = (a ++ quote :: m).prepared.tokens ++ u.prepared.tokens) ∧
        (∀ r' : Source, (a ++ quote :: (c ++ nul :: r')).survey = s.survey) ∧
        ∀ m t : Source, r = m ++ quote :: t → quote ∉ m →
          s.withoutLiterals.beforeNul = a.withoutLiterals ++ t.withoutLiterals.beforeNul ∧
          (s.beforeNul.withoutLiterals = s.withoutLiterals.beforeNul ↔
            quote :: c = t.withoutLiterals.beforeNul) := by
  refine ⟨fun s => (withoutLiterals_lower s).symm, fun s => (beforeNul_lower s).symm,
    fun s => withoutLiterals_beforeNul, fun s => not_endsInNoLiteral_iff, ?_⟩
  intro s a c r h
  refine ⟨h.withoutLiterals_eq, fun m u b => h.tokens_eq, ?_, ?_⟩
  · intro r'
    have hend : HasEnd (a ++ quote :: (c ++ nul :: r')) (a ++ quote :: c) r' :=
      ⟨by simp, h.hasEnd.nul_not_mem⟩
    rw [survey, survey, hend.prepared_eq, h.hasEnd.prepared_eq]
  · intro m t hr hm
    refine ⟨h.beforeNul_eq hr hm, ?_⟩
    rw [h.withoutLiterals_eq, h.beforeNul_eq hr hm, List.append_cancel_left_eq]

/-- A NUL between two literals, and one in a literal, which makes its text ARM code. -/
theorem stages_in_other_orders_of_two :
    let s := ofText "db \"ldr\"" ++ nul :: ofText "\"fld\""
    let a := ofText "db "
    let c := ofText "x ldr"
    let r := ofText "\" fld"
    let t := a ++ quote :: (c ++ nul :: r)
    (EndsInNoLiteral s ∧ s.beforeNul.withoutLiterals = s.withoutLiterals.beforeNul) ∧
      EndsInLiteral t a c r ∧ t.beforeNul.withoutLiterals = ofText "db \"x ldr" ∧
      t.prepared.tokens = ["db", "\"x", "ldr"] ∧
      t.withoutLiterals.beforeNul = ofText "db  fld" := by
  intro s a c r t
  obtain ⟨-, -, hsame, -, hother⟩ := stages_in_other_orders
  have hend : HasEnd s (ofText "db \"ldr\"") (ofText "\"fld\"") := ⟨rfl, by decide⟩
  have hs : EndsInNoLiteral s := .inr ⟨_, _, hend, .inl (by decide)⟩
  have ht : EndsInLiteral t a c r := ⟨rfl, ⟨by decide, by decide⟩, ⟨by decide, by decide⟩, by decide⟩
  obtain ⟨hcut, htokens, -, hlast⟩ := hother t a c r ht
  refine ⟨⟨hs, hsame s hs⟩, ht, hcut.trans (by decide), ?_, ?_⟩
  · rw [htokens (ofText "x") (ofText "ldr") ' '.toUInt8 (by decide) (by decide)]
    decide
  · rw [(hlast [] (ofText " fld") rfl List.not_mem_nil).1]
    decide

end AsmDialect.Source
