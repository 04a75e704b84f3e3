import Abacus.Binary64.Power
import Abacus.Expr.Parser
import Abacus.Expr.Reduce

/-!
# From a text to its value

The stages of an evaluation: the text is validated, read as an expression, its powers are
reduced, and what is left is evaluated. A stage runs only if the ones before it succeeded,
so an invalid text is never called malformed, and a malformed one never overflows.

Each stage tells about its work; `Traced.outcome` is the result alone.
-/

namespace Abacus

/-- What an evaluation depends on besides the text. -/
structure Calculator where
  /-- How many parentheses may be open at once. -/
  maxDepth : Nat
  /-- The power of two doubles. -/
  pow : Binary64 → Binary64 → Binary64

/-- How many parentheses may be open at once if nothing else is said. -/
def defaultMaxDepth : Nat := 100

/-- The result of an evaluation. -/
structure Evaluation where
  /-- The text after its powers were reduced. -/
  reduced : Text
  value : Value
  deriving DecidableEq

/-- Read a text as tokens, and tell of each character that is none. -/
def tokenizeTraced {ε : Type} (s : Text) : Traced ε (List Token) := do
  let tokens := tokenize s
  Traced.tell ((tokens.filter (·.kind = .invalid)).map fun token =>
    .invalidInput token.lexeme token.column)
  pure tokens

/-- Read tokens as an expression, and tell of it. -/
def parseTraced (maxDepth : Nat) (tokens : List Token) : Traced SyntaxError Expr := do
  Traced.tell [.parsing tokens.length]
  let e ← Traced.lift (Expr.parse maxDepth tokens)
  Traced.tell [.parsed e.span]
  pure e

namespace Calculator

/-- The calculator with the platform's power. -/
def standard (maxDepth : Nat) : Calculator := ⟨maxDepth, Binary64.pow⟩

/-- Validate a text, and read it as an expression. -/
def parse (calculator : Calculator) (s : Text) : Traced EvalError Expr := do
  Traced.lift ((validate s).mapError .invalid)
  Traced.tell [.validated s (tokenize s).length]
  (parseTraced calculator.maxDepth (tokenize s)).mapError .ofSyntaxError

/-- Read a text as an expression, and reduce its powers. -/
def reduce (calculator : Calculator) (s : Text) : Traced EvalError Expr := do
  let e ← calculator.parse s
  e.reduce calculator.pow

/-- Evaluate a text. -/
def evaluate (calculator : Calculator) (s : Text) : Traced EvalError Evaluation := do
  let reduced ← calculator.reduce s
  let value ← Traced.lift (reduced.evaluate calculator.pow)
  Traced.tell [.evaluated s value]
  pure ⟨reduced.text, value⟩

/-- Read a text as an expression without validating it, and reduce its powers. -/
def reduceUnchecked (calculator : Calculator) (s : Text) : Traced EvalError Expr := do
  let tokens ← tokenizeTraced s
  let e ← (parseTraced calculator.maxDepth tokens).mapError .ofSyntaxError
  e.reduce calculator.pow

end Calculator

end Abacus
