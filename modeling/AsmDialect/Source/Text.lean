import AsmDialect.Source.Basic
import AsmDialect.Text.Latin
/-!
# Sources given as text

A source can be given as text, character by character, and shown as text, byte by byte. Main
statements: what is shown of a source gives it back (`ofText_decode`), and text gives a source that
shows it, if its characters have numbers below 256 (`decode_ofText_of_lt`).
-/

namespace AsmDialect.Source

/-- Text as bytes, if its characters have numbers below 256. -/
def ofText (t : String) : Source := t.toList.map Char.toUInt8

theorem ofUInt8_toUInt8 {c : Char} (h : c.toNat < 256) : Char.ofUInt8 c.toUInt8 = c := by
  have hval : (Char.ofUInt8 c.toUInt8).val = c.val.toUInt8.toUInt32 := rfl
  apply Char.ext
  apply UInt32.toNat_inj.1
  rw [hval, UInt8.toNat_toUInt32, UInt32.toNat_toUInt8]
  exact Nat.mod_eq_of_lt h

theorem toUInt8_ofUInt8 (b : UInt8) : (Char.ofUInt8 b).toUInt8 = b := by
  have hval : (Char.ofUInt8 b).toUInt8 = b.toUInt32.toUInt8 := rfl
  rw [hval, UInt8.toUInt8_toUInt32]

theorem ofText_decode (w : Source) : ofText (Text.Latin.decode w) = w := by
  have hid : ∀ b ∈ w, (Char.toUInt8 ∘ Char.ofUInt8) b = id b := fun b _ => toUInt8_ofUInt8 b
  rw [ofText, Text.Latin.toList_decode, List.map_map, List.map_congr_left hid, List.map_id]

/-- Text can be told from its bytes if its characters have numbers below 256. -/
theorem decode_ofText_of_lt {t : String} (h : ∀ c ∈ t.toList, c.toNat < 256) :
    Text.Latin.decode (ofText t) = t := by
  have hid : ∀ c ∈ t.toList, (Char.ofUInt8 ∘ Char.toUInt8) c = id c :=
    fun c hc => ofUInt8_toUInt8 (h c hc)
  apply String.toList_inj.1
  rw [Text.Latin.toList_decode, ofText, List.map_map, List.map_congr_left hid, List.map_id]

end AsmDialect.Source
