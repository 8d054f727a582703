import AsmDialect.Profile.Basic
/-!
# Writing a profile

A profile is written as an answer line of numbers, or as a report with a line for each finding.
Either form holds only what belongs to the instruction set: nothing on x86 for ARM code, nothing on
VFP for x86 code. A caller may ask for a form by any scalar; `render` refuses what names no form.
-/

namespace AsmDialect

/-- The forms in which a profile is written. -/
inductive OutputFormat where
  | answer
  | report
deriving DecidableEq, Repr

instance : Coded OutputFormat where
  title := "OutputFormat"
  all := [.answer, .report]
  name
    | .answer => "ANSWER"
    | .report => "REPORT"
  code
    | .answer => .text "answer"
    | .report => .text "report"

/-- What a caller asks for as the form of the output. -/
inductive FormatRequest where
  | known (f : OutputFormat)
  /-- A bare value, which names no form even if it is the code of one. -/
  | other (s : Scalar)
deriving DecidableEq, Repr

/-- A request for a form that does not exist. -/
structure UnknownFormat where
  value : Scalar
deriving DecidableEq, Repr

/-- What is reported of a request for no form. -/
def UnknownFormat.message (e : UnknownFormat) : String :=
  s!"Invalid output format: {e.value.literal}"

namespace Profile

/-- A finding as a digit. -/
def digit (b : Bool) : String := if b then "1" else "0"

/-- The numbers of the answer line: `0` and the VFP finding for ARM code, else `86`, the findings on
AT&T notation and on x87, and the width in bits. -/
def answerFields (p : Profile) : List String :=
  match p.isa with
  | .arm => ["0", digit p.vfp]
  | .x86 => ["86", digit (p.dialect = .att), digit p.x87, toString p.width.bits]

/-- The profile as a line of numbers. -/
def answer (p : Profile) : String := " ".intercalate p.answerFields

/-- The word of a report for a floating point unit that is used or not. -/
def presence (b : Bool) : String := if b then "present" else "absent"

/-- The name of an instruction set in a report. -/
def isaLabel : Isa → String
  | .x86 => "x86"
  | .arm => "ARM"

/-- The name of a notation in a report. -/
def dialectLabel : Dialect → String
  | .intel => "Intel"
  | .att => "AT&T"

/-- The name of a width in a report. -/
def widthLabel : OperandWidth → String
  | .word => "word"
  | .dword => "dword"
  | .qword => "qword"

/-- The lines of the report. -/
def reportLines (p : Profile) : List String :=
  s!"ISA: {isaLabel p.isa}" ::
    match p.isa with
    | .arm => [s!"ARM VFP: VFP {presence p.vfp}"]
    | .x86 =>
      [s!"x86 flavor: {dialectLabel p.dialect}",
       s!"x86 max. operand size: {widthLabel p.width}",
       s!"x86 FPU: FPU {presence p.x87}"]

/-- The profile as a report, without a line end after its last line. -/
def report (p : Profile) : String := "\n".intercalate p.reportLines

/-- The profile in the given form. -/
def inFormat (p : Profile) : OutputFormat → String
  | .answer => p.answer
  | .report => p.report

/-- The profile in the requested form. -/
def render (r : FormatRequest) (p : Profile) : Except UnknownFormat String :=
  match r with
  | .known f => .ok (p.inFormat f)
  | .other s => .error ⟨s⟩

end Profile

end AsmDialect
