/-!
# Bytes as characters

Each byte is shown as the character of the same number, so any list of bytes is some text and no
two lists are the same text.
-/

namespace AsmDialect.Text.Latin

/-- The text whose characters have the numbers of the given bytes. -/
def decode (bytes : List UInt8) : String := String.ofList (bytes.map Char.ofUInt8)

@[simp] theorem toList_decode (bytes : List UInt8) :
    (decode bytes).toList = bytes.map Char.ofUInt8 := by
  simp [decode]

theorem decode_append (a b : List UInt8) : decode (a ++ b) = decode a ++ decode b :=
  String.toList_inj.1 (by simp)

end AsmDialect.Text.Latin
