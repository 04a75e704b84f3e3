/-!
# Double precision numbers

A double is kept as its sign and its *magnitude code*: the other 63 bits of its binary64
form, read as one natural number. The codes are in the order of the absolute values. Codes
below `infinityCode` are finite numbers, `infinityCode` itself is infinity, and the codes
above it are not numbers.

Every finite double is a whole multiple of the smallest positive one, `2 ^ -1074`. This
module measures absolute values in that unit, the *quantum*: `quanta x` is a natural number,
and with it every question about finite doubles becomes one about whole numbers.
-/

namespace Abacus

/-- A double precision number of IEEE 754, every bit of it. -/
structure Binary64 where
  /-- The sign bit; zeros and the values that are no numbers have one too. -/
  negative : Bool
  /-- Exponent and fraction bits, as one number. -/
  magnitude : Nat
  magnitude_lt : magnitude < 1 <<< 63
  deriving DecidableEq

namespace Binary64

/-- The magnitude code of infinity: all exponent bits set, an empty fraction. -/
def infinityCode : Nat := 2047 <<< 52

/-- The number of quanta in one. -/
def quantaPerUnit : Nat := 1 <<< 1074

/-- The number with a given sign and magnitude code; codes past infinity are cut to it. -/
def ofCode (negative : Bool) (code : Nat) : Binary64 :=
  ⟨negative, min code infinityCode, by simp only [infinityCode]; omega⟩

/-- Zero of a given sign. -/
def zero (negative : Bool) : Binary64 := ofCode negative 0

/-- Infinity of a given sign. -/
def infinity (negative : Bool) : Binary64 := ofCode negative infinityCode

/-- The value of an operation that has none. -/
def nan : Binary64 := ⟨false, infinityCode + 1 <<< 51, by decide⟩

instance : Inhabited Binary64 := ⟨zero false⟩

/-- The number with given bits: the sign first, then exponent and fraction. -/
def ofBits (bits : UInt64) : Binary64 :=
  ⟨1 <<< 63 ≤ bits.toNat, bits.toNat % 1 <<< 63, Nat.mod_lt _ (by decide)⟩

/-- The bits of a number. -/
def toBits (x : Binary64) : UInt64 :=
  UInt64.ofNat ((if x.negative then 1 <<< 63 else 0) + x.magnitude)

/-- Neither infinite nor without value. -/
def isFinite (x : Binary64) : Bool := x.magnitude < infinityCode

/-- Infinite, of either sign. -/
def isInfinite (x : Binary64) : Bool := x.magnitude == infinityCode

/-- Not a number. -/
def isNaN (x : Binary64) : Bool := infinityCode < x.magnitude

/-- Zero, of either sign. -/
def isZero (x : Binary64) : Bool := x.magnitude == 0

/-- The quanta of a magnitude code: a code below `2 ^ 52` counts them itself; above, the
upper bits hold an exponent and the lower 52 a fraction that follows a leading one. -/
def codeQuanta (code : Nat) : Nat :=
  if code < 1 <<< 52 then code else (1 <<< 52 + code % 1 <<< 52) <<< (code / 1 <<< 52 - 1)

/-- The absolute value of a finite number, in quanta. -/
def quanta (x : Binary64) : Nat := codeQuanta x.magnitude

/-- The value of a finite number, in quanta. -/
def signedQuanta (x : Binary64) : Int := if x.negative then -(x.quanta : Int) else x.quanta

/-- The integer that a number is, when it is finite and has no fraction. Both zeros are 0. -/
def toInt? (x : Binary64) : Option Int :=
  if x.isFinite && x.quanta % quantaPerUnit == 0 then
    let whole : Int := (x.quanta / quantaPerUnit : Nat)
    some (if x.negative then -whole else whole)
  else none

/-- The number with the other sign. -/
def neg (x : Binary64) : Binary64 := { x with negative := !x.negative }

end Binary64

end Abacus
