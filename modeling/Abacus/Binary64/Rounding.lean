import Abacus.Binary64

/-!
# Rounding to a double

`nearest negative num den` is the double nearest to `num / den` quanta, a half going to the
even neighbour, and infinity past the largest finite double. It is the one place where a
value is rounded: sums, products, quotients, integers and decimal texts are all computed
exactly and handed to it.

The code of the answer needs no case split. With `shift` such that the quotient, divided by
`2 ^ shift`, has 53 binary digits (and `0` when it has fewer), the code is
`shift * 2 ^ 52` plus that quotient rounded: a quotient that rounds up to the next power of
two carries into the exponent by itself.
-/

namespace Abacus

/-- The quotient of two natural numbers, rounded to the nearest, a half to the even one. -/
def roundQuotient (num den : Nat) : Nat :=
  if 2 * (num % den) < den then num / den
  else if den < 2 * (num % den) then num / den + 1
  else num / den + num / den % 2

namespace Binary64

/-- The double nearest to `num / den` quanta, of the given sign. -/
def nearest (negative : Bool) (num den : Nat) : Binary64 :=
  let shift := (num / den).log2 - 52
  ofCode negative (shift <<< 52 + roundQuotient num (den <<< shift))

/-- The double nearest to a number of quanta; zero gets the given sign. -/
def ofQuanta (zeroNegative : Bool) (n : Int) : Binary64 :=
  if n = 0 then zero zeroNegative else nearest (n < 0) n.natAbs 1

/-- The double nearest to an integer. -/
def ofInt (n : Int) : Binary64 := nearest (n < 0) (n.natAbs * quantaPerUnit) 1

/-- The double nearest to `digits * 10 ^ exponent`. -/
def ofDecimal (negative : Bool) (digits : Nat) (exponent : Int) : Binary64 :=
  nearest negative (digits * Nat.pow 10 exponent.toNat * quantaPerUnit)
    (Nat.pow 10 (-exponent).toNat)

end Binary64

end Abacus
