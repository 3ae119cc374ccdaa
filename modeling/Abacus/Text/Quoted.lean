import Abacus.Text.Printable

/-!
# Quoted texts

How a diagnostic names a text: between double quotes, with a backslash before a double quote and
before a backslash, short escapes for the four common controls, and every other character that
would not show written as its code point in hexadecimal.

## Main definitions

* `escape`: what stands for one character;
* `quoted`: the text between quotes.
-/

namespace Abacus.Text

/-- The code point of a character, in lower-case hexadecimal between braces. -/
def codePoint (c : Char) : List Char :=
  '\\' :: 'u' :: '\x7b' :: (Nat.toDigits 16 c.toNat ++ ['\x7d'])

/-- What stands for a character between quotes.  A single quote needs no escape there. -/
def escape (c : Char) : List Char :=
  if c = '"' then ['\\', '"']
  else if c = '\\' then ['\\', '\\']
  else if c = '\n' then ['\\', 'n']
  else if c = '\r' then ['\\', 'r']
  else if c = '\t' then ['\\', 't']
  else if c = '\x00' then ['\\', '0']
  else if isPrintable c then [c]
  else codePoint c

/-- The text between double quotes, escaped. -/
def quoted (s : String) : String :=
  String.ofList ('"' :: (s.toList.flatMap escape ++ ['"']))

/-- No escape holds a bare control character: each is one printable character or starts with a
backslash. -/
theorem escape_eq_or_head (c : Char) :
    (escape c = [c] ∧ isPrintable c = true) ∨ (escape c).head? = some '\\' := by
  unfold escape codePoint
  repeat' split
  all_goals simp_all

end Abacus.Text
