import Abacus.Binary64.Arithmetic
import Abacus.Decimal.Notation

/-!
# Numbers in JSON

A number keeps its digits as they are written: a sign, the digits before the point, those
after it, and the exponent. Whether it is read as an integer or as a double is decided where
it is used.

**Reading a double is not exact.** Digits go into a 64-bit significand as long as it holds
them; the rest only count places. The significand, rounded to a double, is then multiplied
or divided by a power of ten that is a rounded double itself, so the last bit may differ
from that of the nearest double. Numbers past the largest double are refused.

**Writing** uses the shortest digits that read back, ties going to the even digit. Numbers
whose leading digit is between the fifth place after the point and the sixteenth before it
are written plainly, with at least one place after the point; all others with an exponent.
-/

namespace Abacus

/-- A number as it is written in JSON. -/
structure JsonNumber where
  negative : Bool
  /-- The digits before the point. -/
  whole : Text
  /-- The digits after the point, if there is one. -/
  fraction : Option Text
  exponent : Option Int
  deriving DecidableEq

namespace JsonNumber

/-! ### The grammar -/

/-- The digits before the point: a zero, or digits that do not begin with one. -/
def isWhole (digits : Text) : Bool := digits = ['0'] || (!digits.isEmpty && digits.head? ≠ some '0')

/-- The digits at the front of a text, and what follows them. -/
def digitsOf (s : Text) : Text × Text := (s.takeWhile Char.isDigit, s.dropWhile Char.isDigit)

/-- A point and its digits at the front of a text, if it begins with a point. -/
def fraction? (s : Text) : Option (Option Text × Text) :=
  match s with
  | '.' :: rest =>
    let (digits, rest) := digitsOf rest
    if digits.isEmpty then none else some (some digits, rest)
  | _ => some (none, s)

/-- An unsigned exponent that a text is. -/
def magnitude? (s : Text) : Option Int :=
  let (digits, rest) := digitsOf s
  if digits.isEmpty || !rest.isEmpty then none else some (Text.toNat digits)

/-- The exponent that a text is, or `none` within `some` for no text at all. -/
def exponent? (s : Text) : Option (Option Int) :=
  match s with
  | [] => some none
  | c :: rest =>
    if c = 'e' || c = 'E' then
      match rest with
      | '+' :: rest => (magnitude? rest).map some
      | '-' :: rest => (magnitude? rest).map fun n => some (-n)
      | _ => (magnitude? rest).map some
    else none

/-- The number that a text is. -/
def ofText? (s : Text) : Option JsonNumber := do
  let (negative, s) := match s with
    | '-' :: rest => (true, rest)
    | _ => (false, s)
  let (whole, s) := digitsOf s
  if isWhole whole then
    let (fraction, s) ← fraction? s
    let exponent ← exponent? s
    return ⟨negative, whole, fraction, exponent⟩
  else none

/-- The number as it is written; an exponent has a sign. -/
def text (n : JsonNumber) : Text :=
  let sign := if n.negative then ['-'] else []
  let fraction := match n.fraction with
    | none => []
    | some digits => '.' :: digits
  let exponent := match n.exponent with
    | none => []
    | some e => 'e' :: (if 0 ≤ e then '+' :: Text.ofInt e else Text.ofInt e)
  sign ++ n.whole ++ fraction ++ exponent

/-! ### Integers -/

/-- The integer that a number is, when it is written without a point or an exponent. The
negative zero is none. -/
def toInt? (n : JsonNumber) : Option Int :=
  let value := Text.toNat n.whole
  if n.fraction.isSome || n.exponent.isSome then none
  else if n.negative then if value = 0 then none else some (-value)
  else some value

/-- An integer, written in digits. -/
def ofInt (n : Int) : JsonNumber := ⟨n < 0, Text.ofNat n.natAbs, none, none⟩

/-! ### Doubles -/

/-- Add digits to a significand while it stays below `2 ^ 64`; also the number of digits
that were not added. -/
def absorb (significand : Nat) : Text → Nat × Nat
  | [] => (significand, 0)
  | c :: rest =>
    let next := 10 * significand + (c.toNat - '0'.toNat)
    if next < 1 <<< 64 then absorb next rest else (significand, rest.length + 1)

/-- The largest power of ten that is a double. -/
def maxTenPower : Nat := 308

/-- A power of ten as a double. -/
def tenPower (n : Nat) : Binary64 := .ofDecimal false 1 n

/-- A double times a power of ten, rounded at each step; none when it overflows. A number
that is too small for two steps is zero, since it was below `2 ^ 64` at first. -/
def scale? (x : Binary64) (exponent : Int) : Option Binary64 :=
  let n := exponent.natAbs
  if 0 ≤ exponent then
    if n ≤ maxTenPower then
      let y := x.mul (tenPower n)
      if y.isFinite then some y else none
    else if x.isZero then some x else none
  else if n ≤ maxTenPower then some (x.div (tenPower n))
  else if n ≤ 2 * maxTenPower then
    some ((x.div (tenPower maxTenPower)).div (tenPower (n - maxTenPower)))
  else some (.zero false)

/-- The double that a number is read as. -/
def toReal? (n : JsonNumber) : Option Binary64 :=
  let (upper, skipped) := absorb 0 n.whole
  let places := n.fraction.getD []
  let (significand, dropped) := absorb upper places
  let exponent := (skipped : Int) - ((places.length - dropped : Nat) : Int) + n.exponent.getD 0
  (scale? (.ofInt significand) exponent).map fun x => if n.negative then x.neg else x

/-- A finite double as it is written. -/
def ofReal (x : Binary64) : JsonNumber :=
  let d := Decimal.shortest .even x
  if d.leadingExponent < -5 || 16 ≤ d.leadingExponent then
    let digits := Text.ofNat d.digits
    let places := digits.drop 1
    ⟨x.negative, digits.take 1, if places.isEmpty then none else some places,
      some d.leadingExponent⟩
  else ⟨x.negative, d.whole, some (if d.fraction.isEmpty then ['0'] else d.fraction), none⟩

end JsonNumber

end Abacus
