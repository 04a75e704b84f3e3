import Abacus.Text
import Abacus.Text.Printable

/-!
# Quoted text

A text is quoted so that every character in it can be told: between double quotes, with a
backslash before quotes and backslashes, short escapes for the usual control characters, and
the code point in hexadecimal digits for whatever else cannot be shown.
-/

namespace Abacus

namespace Text

/-- A character inside quotes. -/
def escaped (c : Char) : Text :=
  if c = '\x00' then "\\0".toList
  else if c = '\t' then "\\t".toList
  else if c = '\r' then "\\r".toList
  else if c = '\n' then "\\n".toList
  else if c = '"' || c = '\\' then ['\\', c]
  else if isPrintable c then [c]
  else "\\u\x7b".toList ++ Nat.toDigits 16 c.toNat ++ ['\x7d']

/-- A text in quotes. -/
def quoted (s : Text) : Text := '"' :: s.flatMap escaped ++ ['"']

end Text

end Abacus
