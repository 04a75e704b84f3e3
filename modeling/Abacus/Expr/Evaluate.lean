import Abacus.EvalError
import Abacus.Expr.Printer

/-!
# The value of an expression

A chain is evaluated from left to right: the value so far is joined with the value of the
next operand. The value of a power is used as the literal that would stand for it in a
reduced expression, so it makes no difference whether powers are reduced first.

When an operation has no value, the error names the chain up to that operation; its span is
that of the named part, or that of the whole chain, parentheses included, when the operation
is the last one.
-/

namespace Abacus

namespace Expr

/-- The error of the operation at link `index` of a chain. -/
def blame (first : Expr) (links : List Link) (span : Span) (index : Nat)
    (fault : ArithmeticFault) : EvalError :=
  .ofFault fault (leadingText first links index)
    (if index + 1 = links.length then span else leadingSpan first links index)

/-- What the result of an operator goes on as. -/
def resume (op : Operator) (result : Value) : Value :=
  match op with
  | .pow => result.retype
  | _ => result

mutual

/-- The value of an expression. -/
def evaluate (pow : Binary64 → Binary64 → Binary64) : Expr → Except EvalError Value
  | literal value _ => .ok (.ofLiteral value)
  | chain first links span => do
    let start ← first.evaluate pow
    evaluateLinks pow (blame first links span) start 0 links

/-- Apply links to a value, the first one being link `index` of its chain. -/
def evaluateLinks (pow : Binary64 → Binary64 → Binary64)
    (blame : Nat → ArithmeticFault → EvalError) (acc : Value) (index : Nat) :
    List Link → Except EvalError Value
  | [] => .ok acc
  | ⟨op, operand⟩ :: rest => do
    let right ← operand.evaluate pow
    match Value.apply pow op acc right with
    | .ok result => evaluateLinks pow blame (resume op result) (index + 1) rest
    | .error fault => .error (blame index fault)

end

/-- The value of an expression as a double. -/
def evaluateReal (pow : Binary64 → Binary64 → Binary64) (e : Expr) :
    Except EvalError Binary64 :=
  (e.evaluate pow).map Value.toReal

end Expr

end Abacus
