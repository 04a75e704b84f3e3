import Abacus.Binary64.Rounding

/-!
# Arithmetic on doubles

The operations of IEEE 754 with rounding to nearest. Each computes the exact result in
quanta and rounds it once; what remains are the rules for zeros, infinities and values that
are no numbers.
-/

namespace Abacus

namespace Binary64

/-- The sum. Opposite numbers give the positive zero; two negative zeros give a negative one. -/
def add (x y : Binary64) : Binary64 :=
  if x.isNaN || y.isNaN then nan
  else if x.isInfinite then
    if y.isInfinite && x.negative != y.negative then nan else x
  else if y.isInfinite then y
  else ofQuanta (x.negative && y.negative) (x.signedQuanta + y.signedQuanta)

/-- The difference. -/
def sub (x y : Binary64) : Binary64 := x.add y.neg

/-- The product; zero times infinity has no value. -/
def mul (x y : Binary64) : Binary64 :=
  let negative := x.negative != y.negative
  if x.isNaN || y.isNaN then nan
  else if x.isInfinite || y.isInfinite then
    if x.isZero || y.isZero then nan else infinity negative
  else nearest negative (x.quanta * y.quanta) quantaPerUnit

/-- The quotient; `0 / 0` and the quotient of two infinities have no value, and any other
number divided by zero is infinite. -/
def div (x y : Binary64) : Binary64 :=
  let negative := x.negative != y.negative
  if x.isNaN || y.isNaN then nan
  else if x.isInfinite then if y.isInfinite then nan else infinity negative
  else if y.isInfinite then zero negative
  else if y.isZero then if x.isZero then nan else infinity negative
  else nearest negative (x.quanta * quantaPerUnit) y.quanta

end Binary64

end Abacus
