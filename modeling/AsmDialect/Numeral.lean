import AsmDialect.Text.Blank
import AsmDialect.Text.DecimalDigit
import AsmDialect.Text.Quoted
/-!
# Numerals

How an integer is written as the value of a flag. It is decimal, with blanks around it and a sign
before it if wanted; or it opens with `0x` or `0o` and is to base sixteen or eight. Single
underscores may group the digits, and one may follow the opening.
-/

namespace AsmDialect

/-- Why a text is no numeral that can be used. -/
inductive NumeralError where
  /-- The text is not written as a numeral to the base it was taken for. -/
  | malformed (base : Nat) (t : String)
  /-- A decimal numeral with more digits than are allowed. -/
  | tooLong (digits : Nat)
deriving DecidableEq, Repr

namespace Numeral

/-- How many digits a decimal numeral may have. -/
def digitLimit : Nat := 4300

/-- How many characters of a malformed numeral a message shows, quotes and escapes counted. -/
def shownLimit : Nat := 200

end Numeral

/-- What is reported of a text that is no numeral. -/
def NumeralError.message : NumeralError → String
  | malformed base t =>
    let shown := String.ofList ((Text.quoted t).toList.take Numeral.shownLimit)
    s!"invalid literal for int() with base {base}: {shown}"
  | tooLong digits =>
    s!"Exceeds the limit ({Numeral.digitLimit} digits) for integer string conversion: " ++
      s!"value has {digits} digits; use sys.set_int_max_str_digits() to increase the limit"

namespace Numeral

/-- The base that a text is taken to be written to, by its first two characters. A text of two
characters has no room for digits after them and is taken as decimal. -/
def base : List Char → Nat
  | '0' :: 'x' :: _ :: _ => 16
  | '0' :: 'o' :: _ :: _ => 8
  | _ => 10

/-- The value of a letter used as a digit. -/
def letterValue? (c : Char) : Option Nat :=
  if 'a' ≤ c && c ≤ 'z' then some (c.toNat - 'a'.toNat + 10)
  else if 'A' ≤ c && c ≤ 'Z' then some (c.toNat - 'A'.toNat + 10)
  else none

/-- The value of a digit to the given base. -/
def digitValue? (b : Nat) (c : Char) : Option Nat :=
  (Text.decimalValue? c <|> letterValue? c).filter (· < b)

/-- A sign, and what follows it. -/
def sign : List Char → Int × List Char
  | '+' :: cs => (1, cs)
  | '-' :: cs => (-1, cs)
  | cs => (1, cs)

/-- The sign of a numeral and what is left of it where its digits begin. Only a decimal numeral has
blanks and a sign before its digits; any other has its opening, and an underscore after it or not.
-/
def opened (b : Nat) (cs : List Char) : Int × List Char :=
  if b = 10 then sign (cs.dropWhile Text.isBlank)
  else
    match cs.drop 2 with
    | '_' :: rest => (1, rest)
    | rest => (1, rest)

/-- The number with the given digits, first digit first. -/
def ofDigits (b : Nat) (ds : List Nat) : Nat := ds.foldl (fun n d => b * n + d) 0

/-- Whether a character can stand among the digits of a numeral. -/
def isBody (b : Nat) (c : Char) : Bool := c = '_' || (digitValue? b c).isSome

/-- The integer that a text denotes. -/
def parse (t : String) : Except NumeralError Int :=
  let cs := t.toList
  let b := base cs
  let (sign, body) := opened b cs
  let groups := (body.takeWhile (isBody b)).splitOn '_'
  let digits := groups.flatten.filterMap (digitValue? b)
  if groups.any (·.isEmpty) then .error (.malformed b t)
  else if b = 10 && digitLimit < digits.length then .error (.tooLong digits.length)
  else if (body.dropWhile (isBody b)).all Text.isBlank then .ok (sign * ofDigits b digits)
  else .error (.malformed b t)

end Numeral

end AsmDialect
