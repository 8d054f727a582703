import AsmDialect.Text.Unassigned
/-!
# Printable characters

A character is printable when it leaves ink, and the space is printable too. What is left are
controls, format characters, private-use code points, the other blanks, and the code points to which
no character is assigned.
-/

namespace AsmDialect.Text

/-- The first and last code point of each run of controls, format characters, private-use code
points and blanks other than the space, in order. -/
def invisible : List (Nat × Nat) :=
  [(0x0, 0x1F), (0x7F, 0xA0), (0xAD, 0xAD), (0x600, 0x605), (0x61C, 0x61C), (0x6DD, 0x6DD),
   (0x70F, 0x70F), (0x890, 0x891), (0x8E2, 0x8E2), (0x1680, 0x1680), (0x180E, 0x180E),
   (0x2000, 0x200F), (0x2028, 0x202F), (0x205F, 0x2064), (0x2066, 0x206F), (0x3000, 0x3000),
   (0xE000, 0xF8FF), (0xFEFF, 0xFEFF), (0xFFF9, 0xFFFB), (0x110BD, 0x110BD), (0x110CD, 0x110CD),
   (0x13430, 0x13438), (0x1BCA0, 0x1BCA3), (0x1D173, 0x1D17A), (0xE0001, 0xE0001),
   (0xE0020, 0xE007F), (0xF0000, 0xFFFFD), (0x100000, 0x10FFFD)]

/-- Whether a character shows when it is printed. -/
def isPrintable (c : Char) : Bool :=
  !(invisible.any fun (first, last) => first ≤ c.toNat && c.toNat ≤ last) && !isUnassigned c.toNat

end AsmDialect.Text
