import Abacus.Decimal
import Abacus.Text

/-!
# How numbers are written

A decimal is written in plain digits, with a point where it has a fraction, or in scientific
notation. Doubles are written with the shortest digits that read back: `plain` never uses an
exponent, and `text`, the form of results, does from `10 ^ 16` on.
-/

namespace Abacus

namespace Decimal

/-- The digits before the point; a single zero when there are none. -/
def whole (d : Decimal) : Text :=
  let digits := Text.ofNat d.digits
  let places := (-d.exponent).toNat
  if places = 0 then digits ++ List.replicate d.exponent.toNat '0'
  else if places < digits.length then digits.take (digits.length - places)
  else ['0']

/-- The digits after the point. -/
def fraction (d : Decimal) : Text :=
  let digits := Text.ofNat d.digits
  let places := (-d.exponent).toNat
  if places = 0 then []
  else if places < digits.length then digits.drop (digits.length - places)
  else List.replicate (places - digits.length) '0' ++ digits

/-- Digits before and after a point; the point is left out when nothing follows it. -/
def pointed (whole fraction : Text) : Text :=
  if fraction.isEmpty then whole else whole ++ '.' :: fraction

/-- All digits of a decimal, with a point where it has a fraction. -/
def positional (d : Decimal) : Text := pointed d.whole d.fraction

/-- The power of ten of the leading digit. -/
def leadingExponent (d : Decimal) : Int := d.exponent + ((Text.ofNat d.digits).length - 1 : Nat)

/-- One digit, a point, the other digits, and the exponent after an `e`. -/
def scientific (d : Decimal) : Text :=
  let digits := Text.ofNat d.digits
  pointed (digits.take 1) (digits.drop 1) ++ 'e' :: Text.ofInt d.leadingExponent

end Decimal

namespace Binary64

/-- A minus sign for numbers with the sign bit, also for the negative zero. -/
def signText (x : Binary64) : Text := if x.negative then ['-'] else []

/-- The number in plain digits. Of two equally near decimals the larger is written. -/
def plain (x : Binary64) : Text :=
  if x.isNaN then "NaN".toList
  else if x.isInfinite then x.signText ++ "inf".toList
  else x.signText ++ (Decimal.shortest .up x).positional

/-- Whether the absolute value of a finite number is `10 ^ 16` or more. -/
def isHuge (x : Binary64) : Bool :=
  x.isFinite && 10000000000000000 * quantaPerUnit ≤ x.quanta

/-- The number as results are written: in plain digits below `10 ^ 16`, and in scientific
notation from there on. -/
def text (x : Binary64) : Text :=
  if x.isHuge then x.signText ++ (Decimal.shortest .up x).scientific else x.plain

end Binary64

end Abacus
