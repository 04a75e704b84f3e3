/-!
# The binary operators

Five operators on three levels. A level has a *precedence*; the operators of a higher one
bind tighter, and all group to the left, the power too: `2^3^2` is `(2^3)^2`.
-/

namespace Abacus

/-- A binary operator. -/
inductive Operator where
  | add
  | sub
  | mul
  | div
  | pow
  deriving DecidableEq, Repr

namespace Operator

/-- All operators, weaker ones first. -/
def all : List Operator := [.add, .sub, .mul, .div, .pow]

/-- The level of an operator, from 1 for sums to 3 for powers. -/
def precedence : Operator → Nat
  | add | sub => 1
  | mul | div => 2
  | pow => 3

/-- The character that stands for an operator. -/
def symbol : Operator → Char
  | add => '+'
  | sub => '-'
  | mul => '*'
  | div => '/'
  | pow => '^'

/-- The operator that a character stands for. -/
def ofSymbol? (c : Char) : Option Operator := all.find? (·.symbol == c)

theorem mem_all (op : Operator) : op ∈ all := by cases op <;> decide

@[simp] theorem ofSymbol?_symbol (op : Operator) : ofSymbol? op.symbol = some op := by
  cases op <;> decide

/-- Only its own symbol stands for an operator. -/
theorem eq_symbol_of_ofSymbol? {c : Char} {op : Operator} (h : ofSymbol? c = some op) :
    c = op.symbol := by
  have := List.find?_some h
  exact (beq_iff_eq.mp this).symm

end Operator

end Abacus
