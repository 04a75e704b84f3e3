import Abacus.Expr.Evaluate
import Abacus.Traced

/-!
# Reducing powers

Before an expression is evaluated, each chain of powers in it is replaced by a literal with
its value. Operands are reduced before the chain they stand in, and a chain of powers is
folded from the left, one power at a time. The literal takes the span of the whole chain;
everything outside of powers stays as it is.

An expression without powers is not touched, and nothing is told about it.
-/

namespace Abacus

namespace Expr

/-- Fold the links of a chain of powers onto the literal so far. The literal of each step
has the span of the steps up to it, and the last one that of the chain. -/
def foldPowers (pow : Binary64 → Binary64 → Binary64) (span : Span) (acc : Expr) :
    List Link → Traced EvalError Expr
  | [] => pure acc
  | ⟨_, operand⟩ :: rest => do
    let stepSpan := if rest.isEmpty then span else acc.span.cover operand.span
    let base ← Traced.lift (acc.evaluateReal pow)
    let exponent ← Traced.lift (operand.evaluateReal pow)
    match Value.power pow base exponent with
    | .error fault => Traced.fail (.ofFault fault (binary acc .pow operand).text stepSpan)
    | .ok value =>
      Traced.tell [.power base exponent value]
      foldPowers pow span (.literal value.toLiteral stepSpan) rest

/-- Put a chain together again from its reduced operands. A chain whose first operator is
the power is folded. -/
def rebuild (pow : Binary64 → Binary64 → Binary64) (first : Expr) (links : List Link)
    (span : Span) : Traced EvalError Expr :=
  if links.head?.any (·.operator = .pow) then foldPowers pow span first links
  else pure ((ofChain first links).withSpan span)

mutual

/-- Replace all chains of powers, inner ones first. -/
def reduceNode (pow : Binary64 → Binary64 → Binary64) : Expr → Traced EvalError Expr
  | literal value span => pure (.literal value span)
  | chain first links span => do
    let first ← first.reduceNode pow
    let links ← reduceLinks pow links
    rebuild pow first links span

/-- Replace all chains of powers in the operands of links. -/
def reduceLinks (pow : Binary64 → Binary64 → Binary64) :
    List Link → Traced EvalError (List Link)
  | [] => pure []
  | ⟨op, operand⟩ :: rest => do
    let operand ← operand.reduceNode pow
    let rest ← reduceLinks pow rest
    pure (⟨op, operand⟩ :: rest)

end

/-- The expression with its powers replaced by their values. -/
def reduce (pow : Binary64 → Binary64 → Binary64) (e : Expr) : Traced EvalError Expr :=
  if e.count .pow = 0 then pure e
  else do
    Traced.tell [.reducing (e.count .pow) e.text]
    let reduced ← e.reduceNode pow
    Traced.tell [.reduced reduced.text]
    pure reduced

end Expr

end Abacus
