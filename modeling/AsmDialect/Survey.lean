import AsmDialect.Log
import AsmDialect.Profile.Scan
import AsmDialect.Source.Literal
import AsmDialect.Source.Words
/-!
# Surveying a source

A survey takes a source from its bytes to its profile and keeps what it met on the way: the prepared
text and the words in it.
-/

namespace AsmDialect

/-- What a survey of a source brings to light. -/
structure Survey where
  /-- The source as it is read for words. -/
  prepared : Source
  /-- The words in it. -/
  tokens : List String
  /-- What the words add up to. -/
  profile : Profile
deriving DecidableEq, Repr

/-- The survey of a source. -/
def Source.survey (s : Source) : Survey :=
  let prepared := s.prepared
  let tokens := prepared.tokens
  ⟨prepared, tokens, .ofTokens tokens⟩

/-- The profile of a source. -/
def Source.profile (s : Source) : Profile := s.survey.profile

/-- The log of a survey. -/
def Survey.log (v : Survey) : Log :=
  [.prepared v.prepared, .tokensFound v.tokens.length, .profiled v.profile]

end AsmDialect
