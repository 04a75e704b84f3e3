import Abacus.Decimal.Notation

/-!
# Literals

A literal is a number in an expression. Texts only ever contain integers; reducing powers
puts their values back as literals of either sort.
-/

namespace Abacus

/-- A number in an expression. -/
inductive Literal where
  | int (value : Int64)
  | real (value : Binary64)
  deriving DecidableEq

namespace Literal

/-- The number in digits. -/
def text : Literal → Text
  | int value => Text.ofInt value.toInt
  | real value => value.text

/-- Whether a literal is printed with a sign. For a real one the sign bit counts, so the
negative zero is negative. -/
def isNegative : Literal → Bool
  | int value => value < 0
  | real value => value.negative

end Literal

end Abacus
