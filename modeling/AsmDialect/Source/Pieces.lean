import AsmDialect.Source.Literal
/-!
# Pieces between quotes

The quotes of a source cut it into pieces, one more than there are quotes. Pieces in odd places are
the insides of literals, except that the last piece is none if there is no quote to close it. Main
statement: a source without its literals is what is outside them, put together
(`withoutLiterals_eq`).
-/

namespace AsmDialect.Source

/-- The pieces into which quotes cut a source. -/
def pieces (s : Source) : List Source := s.splitOn quote

/-- The first piece, the third and so on, one after the other. If the number of pieces is even, the
last of them is kept too, with the quote before it. -/
def outside : List Source → Source
  | [] => []
  | [p] => p
  | [p, q] => p ++ quote :: q
  | p :: _ :: r :: ps => p ++ outside (r :: ps)

/-- How many quotes a source has. -/
def quotes (s : Source) : Nat := s.count quote

theorem pieces_ne_nil (s : Source) : pieces s ≠ [] := List.splitOnP_ne_nil _ _

theorem pieces_nil : pieces [] = [[]] := rfl

theorem pieces_quote_cons (s : Source) : pieces (quote :: s) = [] :: pieces s := by
  simp [pieces, List.splitOn, List.splitOnP_cons_eq_if_modifyHead]

theorem pieces_cons {b : UInt8} (hb : b ≠ quote) (s : Source) :
    pieces (b :: s) = (pieces s).modifyHead (b :: ·) := by
  simp [pieces, List.splitOn, List.splitOnP_cons_eq_if_modifyHead, hb]

theorem outside_modifyHead (b : UInt8) {ps : List Source} (h : ps ≠ []) :
    outside (ps.modifyHead (b :: ·)) = b :: outside ps := by
  match ps with
  | [p] => rfl
  | [p, q] => rfl
  | p :: _ :: r :: ps => rfl

/-- What is put out from inside a quote that may be closed, by the pieces that follow it. -/
def afterOpening (held : Source) : List Source → Source
  | [] => []
  | [p] => quote :: (held.reverse ++ p)
  | _ :: ps => outside ps

theorem go_eq (s : Source) :
    withoutLiterals.go none s = outside (pieces s) ∧
      ∀ held, withoutLiterals.go (some held) s = afterOpening held (pieces s) := by
  induction s with
  | nil => simp [withoutLiterals.go, pieces_nil, outside, afterOpening]
  | cons b s ih =>
    obtain ⟨p, ps, hp⟩ := List.exists_cons_of_ne_nil (pieces_ne_nil s)
    by_cases hb : b = quote
    · subst hb
      simp only [withoutLiterals.go, if_true, pieces_quote_cons, ih.1, ih.2]
      rw [hp]
      cases ps <;> simp [outside, afterOpening]
    · simp only [withoutLiterals.go, hb, if_false, pieces_cons hb, ih.1, ih.2]
      rw [outside_modifyHead b (pieces_ne_nil s), hp]
      cases ps <;> simp [afterOpening]

/-- **Literals by pairs of quotes**: what stays is what is outside the pairs. -/
theorem withoutLiterals_eq (s : Source) : s.withoutLiterals = outside (pieces s) :=
  (go_eq s).1

end AsmDialect.Source
