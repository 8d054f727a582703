/-!
# Assembly source, byte by byte

A source is text without a declared encoding, so it is kept as bytes. Two things are done to it
here before it is read as code: whatever follows the first NUL is no part of it (`beforeNul`), and
the capitals of ASCII are folded (`lower`). Bytes of 128 and above stand for themselves.
-/

namespace AsmDialect

/-- Assembly source as a list of bytes. -/
abbrev Source := List UInt8

namespace Source

/-- The byte that ends a source. -/
def nul : UInt8 := 0

theorem toNat_nul : nul.toNat = 0 := rfl

/-- The byte that opens and closes a string literal. -/
def quote : UInt8 := '"'.toUInt8

/-- The source up to its first NUL. -/
def beforeNul (s : Source) : Source := s.takeWhile (· != nul)

/-- Whether a byte is one of the capitals `A` to `Z`. -/
def isCapital (b : UInt8) : Bool := 'A'.toUInt8 ≤ b && b ≤ 'Z'.toUInt8

/-- The small letter of a capital, any other byte unchanged. Capitals and small letters stand 32
apart. -/
def lowerByte (b : UInt8) : UInt8 := if isCapital b then b + 32 else b

/-- The source with its capitals folded. -/
def lower (s : Source) : Source := s.map lowerByte

end Source

end AsmDialect
