import AsmDialect.Source.Basic
/-!
# String literals

Quotes pair up from left to right: the first opens a literal and the second closes it, the third
opens the next. `withoutLiterals` drops every closed literal together with its quotes. A last quote
that nothing closes opens no literal, so it stays in the source with all that follows it.
-/

namespace AsmDialect.Source

/-- The source without its closed string literals. -/
def withoutLiterals (s : Source) : Source := go none s
where
  /-- Reads on with no quote open (`none`), or with a quote open and the bytes met since, latest
  first (`some`). -/
  go : Option Source → Source → Source
    | none, [] => []
    | some held, [] => quote :: held.reverse
    | none, b :: s => if b = quote then go (some []) s else b :: go none s
    | some held, b :: s => if b = quote then go none s else go (some (b :: held)) s

/-- The source as it is read for words: cut at its end, freed of literals, in small letters. The cut
comes first, so a literal that is still open at the first NUL counts as code. -/
def prepared (s : Source) : Source := s.beforeNul.withoutLiterals.lower

end AsmDialect.Source
