import Abacus.Text.Cut

/-!
# Blank characters

The characters that separate words (the Unicode property White_Space), and a text without those
at its ends.

## Main definitions

* `isBlank`: the property itself;
* `trim`: a text without its outer blanks.
-/

namespace Abacus.Text

/-- The Unicode property White_Space: 25 characters, six of them in ASCII. -/
def isBlank (c : Char) : Bool :=
  let n := c.toNat
  n == 0x20 || (0x09 ≤ n && n ≤ 0x0D) || n == 0x85 || n == 0xA0 || n == 0x1680 ||
    (0x2000 ≤ n && n ≤ 0x200A) || n == 0x2028 || n == 0x2029 || n == 0x202F || n == 0x205F ||
    n == 0x3000

/-- A text without the blanks at its two ends. -/
def trim (s : String) : String :=
  String.ofList (strip isBlank s.toList)

/-- Every character is blank; so is the empty text. -/
def isAllBlank (s : String) : Bool :=
  s.toList.all isBlank

/-- Core's ASCII blanks are blank. -/
theorem isBlank_of_isWhitespace {c : Char} (h : c.isWhitespace = true) : isBlank c = true := by
  simp only [Char.isWhitespace, Bool.or_eq_true, decide_eq_true_eq] at h
  rcases h with ((rfl | rfl) | rfl) | rfl <;> decide

end Abacus.Text
