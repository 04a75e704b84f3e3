import Abacus.Text

/-!
# White space

The characters with the property White_Space of the Unicode standard, and what is left of a
text without them at its ends.
-/

namespace Abacus

namespace Text

/-- The code points of white space: the control characters from tab to carriage return, the
blank, next line, and the spaces and separators of other scripts. -/
def blankCodes : List Nat :=
  [0x9, 0xa, 0xb, 0xc, 0xd, 0x20, 0x85, 0xa0, 0x1680, 0x2000, 0x2001, 0x2002, 0x2003, 0x2004,
   0x2005, 0x2006, 0x2007, 0x2008, 0x2009, 0x200a, 0x2028, 0x2029, 0x202f, 0x205f, 0x3000]

/-- Whether a character is white space. -/
def isBlank (c : Char) : Bool := blankCodes.contains c.toNat

/-- A text without the white space at both ends. -/
def trim (s : Text) : Text := ((s.dropWhile isBlank).reverse.dropWhile isBlank).reverse

/-- What core calls white space is white space. -/
theorem isBlank_of_isWhitespace {c : Char} (h : c.isWhitespace = true) : isBlank c = true := by
  simp only [Char.isWhitespace, Bool.or_eq_true, decide_eq_true_eq] at h
  rcases h with ((rfl | rfl) | rfl) | rfl <;> decide

end Text

end Abacus
