import Abacus.Binary64.Arithmetic
import Abacus.Literal
import Abacus.Operator

/-!
# Values and their arithmetic

A value is an integer of 32 bits, an integer of 64 bits, or a double. A literal has the
narrowest sort that holds it, and an operation works at the widest sort of its operands:
sums, differences and products of integers are checked for overflow at that width, quotients
and powers are computed from doubles. An operation on doubles must have a finite result.

The real power of two doubles is a parameter, `pow`: nothing here depends on how it rounds.
-/

namespace Abacus

/-- A number during evaluation. -/
inductive Value where
  | int32 (n : Int32)
  | int64 (n : Int64)
  | real (x : Binary64)
  deriving DecidableEq

/-- Why an operation has no value. -/
inductive ArithmeticFault where
  /-- An integer that does not fit, a real that is not finite, or a divisor that is zero. -/
  | overflow
  /-- A power that is no real number. -/
  | undefined
  deriving DecidableEq

namespace Value

/-- The integer that a value of an integer sort is. -/
def toInt? : Value → Option Int
  | int32 n => some n.toInt
  | int64 n => some n.toInt
  | real _ => none

/-- The double nearest to a value. -/
def toReal : Value → Binary64
  | int32 n => .ofInt n.toInt
  | int64 n => .ofInt n.toInt
  | real x => x

/-- Whether an integer has 32 bits. -/
def fits32 (n : Int) : Bool := -2147483648 ≤ n && n < 2147483648

/-- Whether an integer has 64 bits. -/
def fits64 (n : Int) : Bool := -9223372036854775808 ≤ n && n < 9223372036854775808

/-- An integer at its narrowest sort. -/
def ofInt64 (n : Int64) : Value := if fits32 n.toInt then int32 (.ofInt n.toInt) else int64 n

/-- A result of 32 bits. -/
def checked32 (n : Int) : Except ArithmeticFault Value :=
  if fits32 n then .ok (int32 (.ofInt n)) else .error .overflow

/-- A result of 64 bits. -/
def checked64 (n : Int) : Except ArithmeticFault Value :=
  if fits64 n then .ok (int64 (.ofInt n)) else .error .overflow

/-- A result that must be finite. -/
def finite (x : Binary64) : Except ArithmeticFault Value :=
  if x.isFinite then .ok (real x) else .error .overflow

/-- The quotient of two doubles. No number has a quotient by zero. -/
def divide (x y : Binary64) : Except ArithmeticFault Value :=
  if y.isZero then .error .overflow else finite (x.div y)

/-- The power of an integer, if it has 64 bits. A base other than 0, 1 and -1 leaves 64 bits
at the 64th power at the latest, and the powers of those three depend on parity alone. -/
def intPower? (base : Int) (power : Nat) : Option Int64 :=
  let result? :=
    if 2 ≤ base.natAbs then if power < 64 then some (Int.pow base power) else none
    else if power = 0 then some 1
    else if power % 2 = 0 then some (base * base)
    else some base
  result?.bind fun n => if fits64 n then some (.ofInt n) else none

/-- The largest power that is computed on integers, the largest one of 32 bits without a sign. -/
def maxIntPower : Int := 4294967295

/-- The power of two doubles that are integers of a limited size, computed on integers; a
base of `2 ^ 63`, the one that is too large by one, is cut to 64 bits. -/
def exactPower? (base power : Binary64) : Option Int64 := do
  let b ← base.toInt?
  let p ← power.toInt?
  if b.natAbs ≤ 9223372036854775808 && 0 ≤ p && p ≤ maxIntPower then
    intPower? (min b 9223372036854775807) p.toNat
  else none

/-- The power of two doubles: on integers if that gives a result, and by `pow` if not. -/
def power (pow : Binary64 → Binary64 → Binary64) (x y : Binary64) :
    Except ArithmeticFault Value :=
  match exactPower? x y with
  | some n => .ok (ofInt64 n)
  | none => if (pow x y).isNaN then .error .undefined else finite (pow x y)

/-- The sum, difference or product of integers. -/
def intResult : Operator → Int → Int → Int
  | .add, a, b => a + b
  | .sub, a, b => a - b
  | _, a, b => a * b

/-- The sum, difference or product of doubles. -/
def realResult : Operator → Binary64 → Binary64 → Binary64
  | .add, x, y => x.add y
  | .sub, x, y => x.sub y
  | _, x, y => x.mul y

/-- The sum, difference or product of two values, at the widest sort of the two. -/
def combine (op : Operator) : Value → Value → Except ArithmeticFault Value
  | int32 a, int32 b => checked32 (intResult op a.toInt b.toInt)
  | a, b =>
    match a.toInt?, b.toInt? with
    | some m, some n => checked64 (intResult op m n)
    | _, _ => finite (realResult op a.toReal b.toReal)

/-- The value of an operator at two values. -/
def apply (pow : Binary64 → Binary64 → Binary64) (op : Operator) (a b : Value) :
    Except ArithmeticFault Value :=
  match op with
  | .div => divide a.toReal b.toReal
  | .pow => power pow a.toReal b.toReal
  | .add | .sub | .mul => combine op a b

/-- Integers from this bound on, `10 ^ 15`, stand in reduced expressions as doubles. -/
def literalBound : Nat := 1000000000000000

/-- The literal that stands for a value in a reduced expression: an integer if the value is
one below `literalBound`, whatever its sort, and a double if not. -/
def toLiteral : Value → Literal
  | int32 n => .int n.toInt64
  | int64 n => if n.toInt.natAbs < literalBound then .int n else .real (.ofInt n.toInt)
  | real x =>
    match x.toInt? with
    | some n => if n.natAbs < literalBound then .int (.ofInt n) else .real x
    | none => .real x

/-- The value of a literal. -/
def ofLiteral : Literal → Value
  | .int n => ofInt64 n
  | .real x => real x

/-- The value that is left when a value has stood as a literal. -/
def retype (v : Value) : Value := ofLiteral v.toLiteral

/-- The value in digits. -/
def text : Value → Text
  | int32 n => Text.ofInt n.toInt
  | int64 n => Text.ofInt n.toInt
  | real x => x.text

end Value

end Abacus
