import Abacus.Binary64.Rounding

/-!
# The shortest decimal that reads back

A double is printed with as few digits as allow it to be read back. Decimals of a given
exponent form a grid, and the grids are nested: a coarser one is part of every finer one. So
the search walks from coarse grids to fine ones and stops at the first that has a decimal
which rounds to the number. On a grid only the two neighbours of the number matter, and if
both read back the nearer one is taken.

"Reads back" is `Binary64.ofDecimal`, the rounding of the library itself: what is found is
right because it is tested, not because of how it was found.
-/

namespace Abacus

/-- The number `digits * 10 ^ exponent`. -/
structure Decimal where
  /-- All significant digits, as one number. -/
  digits : Nat
  /-- The power of ten that they count. -/
  exponent : Int
  deriving DecidableEq, Repr

/-- Which of two equally near decimals is taken. -/
inductive Tie where
  /-- The larger one. -/
  | up
  /-- The one whose last digit is even. -/
  | even
  deriving DecidableEq, Repr

namespace Decimal

/-- Whether a decimal rounds to the absolute value of `x`. -/
def readsBackAs (d : Decimal) (x : Binary64) : Bool :=
  Binary64.ofDecimal x.negative d.digits d.exponent == x

/-- Of `n` and `n + 1`, the nearer to `(n * den + rest) / den`. -/
def nearer (tie : Tie) (n rest den : Nat) : Nat :=
  if 2 * rest < den then n
  else if den < 2 * rest then n + 1
  else match tie with
    | .up => n + 1
    | .even => n + n % 2

/-- The best decimal for `x` on the grid of an exponent, if one there reads back. -/
def onGrid? (tie : Tie) (x : Binary64) (exponent : Int) : Option Decimal :=
  let num := x.quanta * Nat.pow 10 (-exponent).toNat
  let den := Binary64.quantaPerUnit * Nat.pow 10 exponent.toNat
  let below : Decimal := ⟨num / den, exponent⟩
  let above : Decimal := ⟨num / den + 1, exponent⟩
  match below.readsBackAs x, above.readsBackAs x with
  | true, true => some ⟨nearer tie (num / den) (num % den) den, exponent⟩
  | true, false => some below
  | false, true => some above
  | false, false => none

/-- The first decimal that reads back, on `grids` grids from the one of `exponent` down. -/
def search (tie : Tie) (x : Binary64) : (grids : Nat) → (exponent : Int) → Decimal
  | 0, exponent => ⟨0, exponent⟩
  | grids + 1, exponent => (onGrid? tie x exponent).getD (search tie x grids (exponent - 1))

/-- An exponent whose grid is too coarse for `x`, and at most three above the exponent of the
leading digit: `30103 / 100000` is the logarithm of two. -/
def coarseExponent (x : Binary64) : Int := ((x.quanta.log2 : Int) - 1073) * 30103 / 100000 + 1

/-- The shortest decimal that reads back as the absolute value of a finite number. Twenty
grids are enough to reach seventeen significant digits, and those always read back. -/
def shortest (tie : Tie) (x : Binary64) : Decimal :=
  if x.isZero then ⟨0, 0⟩ else search tie x 20 (coarseExponent x)

end Decimal

end Abacus
