import AsmDialect.Profile.Answer
import AsmDialect.Profile.Scan
/-!
# Sessions

A session keeps one profile and takes steps on it, one at a time: scans that add to it, questions
that leave it as it is, and a reset. A step that is refused leaves the profile as it is, too, and
the session goes on. Main statement: a session can be broken off and taken up again where it was
left (`Session.run_append`).
-/

namespace AsmDialect

/-- A step of a session. -/
inductive Step where
  /-- Looks for loads and stores of ARM among words. -/
  | arm (tokens : List String)
  /-- Looks for x86 registers among words. -/
  | registers (tokens : List String)
  /-- Looks for x87 instructions among words. -/
  | x87 (tokens : List String)
  | widen (w : OperandWidth)
  | answer
  | report
  | format (r : FormatRequest)
  | equals (p : Profile)
  | describe
  | reset (p : Profile)
deriving DecidableEq, Repr

/-- What a step gives back. -/
inductive Reply where
  | nothing
  | truth (b : Bool)
  | text (t : String)
  | refused (e : UnknownFormat)
deriving DecidableEq, Repr

/-- The reply of a request for a form. -/
def Reply.ofRendered : Except UnknownFormat String → Reply
  | .ok t => .text t
  | .error e => .refused e

/-- Takes a step. Gives its reply and the profile after it. -/
def Step.run (p : Profile) : Step → Reply × Profile
  | arm ts =>
    let (found, q) := p.scanArm (Clue.ofTokens ts)
    (.truth found, q)
  | registers ts => (.nothing, p.scanRegisters (Clue.ofTokens ts))
  | x87 ts => (.nothing, p.scanX87 (Clue.ofTokens ts))
  | widen w => (.nothing, p.widen w)
  | answer => (.text p.answer, p)
  | report => (.text p.report, p)
  | format r => (.ofRendered (p.render r), p)
  | equals q => (.truth (p = q), p)
  | describe => (.text p.describe, p)
  | reset q => (.nothing, q)

/-- Takes steps one after the other. Gives the reply to each and the profile after it. -/
def Session.run (p : Profile) : List Step → List (Reply × Profile)
  | [] => []
  | step :: steps =>
    let (reply, q) := step.run p
    (reply, q) :: run q steps

/-- The profile after all steps. -/
def Session.final (p : Profile) (steps : List Step) : Profile :=
  steps.foldl (fun q step => (step.run q).2) p

theorem Session.run_append (p : Profile) (steps more : List Step) :
    Session.run p (steps ++ more) =
      Session.run p steps ++ Session.run (Session.final p steps) more := by
  induction steps generalizing p with
  | nil => rfl
  | cons step steps ih => simp [Session.run, Session.final, ih]

theorem Session.length_run (p : Profile) (steps : List Step) :
    (Session.run p steps).length = steps.length := by
  induction steps generalizing p with
  | nil => rfl
  | cons step steps ih => simp [Session.run, ih]

end AsmDialect
