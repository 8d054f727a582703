import AsmDialect.Source.Basic
import AsmDialect.Text.Latin
/-!
# Words of a source

Nine bytes separate words: space, tab, carriage return, line feed, comma, and the round and square
brackets. A word is a longest run of other bytes, so a source has no empty words, and two separators
in a row count as one. Main statement: a separator cuts the words of a source in two
(`words_append_cons`).
-/

namespace AsmDialect.Source

/-- The bytes that separate words. -/
def separators : List UInt8 := " \t\r\n,()[]".toList.map Char.toUInt8

theorem separators_eq : separators = [32, 9, 13, 10, 44, 40, 41, 91, 93] := by decide

/-- Whether a byte separates words. -/
def isSeparator (b : UInt8) : Bool := separators.contains b

/-- The words of a source, in order. -/
def words (s : Source) : List Source := (s.splitOnP isSeparator).filter (!·.isEmpty)

theorem words_nil : words [] = [] := by
  simp [words]

/-- **Cut at a separator**: no word reaches across one. -/
theorem words_append_cons {s r : Source} {b : UInt8} (hb : isSeparator b = true) :
    words (s ++ b :: r) = words s ++ words r := by
  simp [words, List.splitOnP_append_cons s r hb]

theorem words_cons_of_separator {s : Source} {b : UInt8} (hb : isSeparator b = true) :
    words (b :: s) = words s := by
  simpa [words_nil] using words_append_cons (s := []) (r := s) hb

theorem words_append_of_separators {g s : Source} (hg : ∀ b ∈ g, isSeparator b = true) :
    words (g ++ s) = words s := by
  induction g with
  | nil => rfl
  | cons b g ih =>
    rw [List.cons_append, words_cons_of_separator (hg b (by simp))]
    exact ih fun c hc => hg c (by simp [hc])

theorem words_eq_singleton {w : Source} (hne : w ≠ []) (hw : ∀ b ∈ w, isSeparator b = false) :
    words w = [w] := by
  simp [words, List.splitOnP_eq_singleton hw, hne]

/-- The words of a source as text. -/
def tokens (s : Source) : List String := s.words.map Text.Latin.decode

end AsmDialect.Source
