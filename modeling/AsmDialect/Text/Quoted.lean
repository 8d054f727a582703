import AsmDialect.Text.Printable
/-!
# Quoted text

Text is shown in messages between quotes, in such a way that it stays on one line and shows where it
ends. The quotes are single, or double if the text has single quotes and no double ones. Inside, the
backslash and the quote in use follow a backslash, tab and line ends have a letter, and any other
character that does not print is given by its number.
-/

namespace AsmDialect.Text

/-- The digit of a number below sixteen, in small letters. -/
def hexDigit (n : Nat) : Char := Char.ofNat (if n < 10 then '0'.toNat + n else 'a'.toNat + (n - 10))

/-- The lowest `k` digits of a number to base sixteen. -/
def hexDigits : (k n : Nat) → List Char
  | 0, _ => []
  | k + 1, n => hexDigits k (n / 16) ++ [hexDigit (n % 16)]

/-- A character by its number, in the shortest of three forms that has room for it. -/
def numbered (c : Char) : List Char :=
  if c.toNat < 0x100 then '\\' :: 'x' :: hexDigits 2 c.toNat
  else if c.toNat < 0x10000 then '\\' :: 'u' :: hexDigits 4 c.toNat
  else '\\' :: 'U' :: hexDigits 8 c.toNat

/-- A character as it stands between the given quotes. -/
def escaped (mark c : Char) : List Char :=
  if c = mark || c = '\\' then ['\\', c]
  else if c = '\t' then ['\\', 't']
  else if c = '\n' then ['\\', 'n']
  else if c = '\r' then ['\\', 'r']
  else if isPrintable c then [c]
  else numbered c

/-- The quotes that need the fewer escapes, single ones if it makes no difference. -/
def quoteFor (cs : List Char) : Char := if cs.contains '\'' && !cs.contains '"' then '"' else '\''

/-- The text between quotes. -/
def quoted (t : String) : String :=
  let mark := quoteFor t.toList
  String.ofList (mark :: t.toList.flatMap (escaped mark) ++ [mark])

end AsmDialect.Text
