import Abacus.SyntaxError
import Abacus.Validation
import Abacus.Value

/-!
# Errors of an evaluation

Everything that can keep a text from having a value. Parentheses that are nested too deeply
are no fault of the writing, so they are told apart from the other syntax errors.
-/

namespace Abacus

/-- Why a text has no value. -/
inductive EvalError where
  | invalid (error : ValidationError)
  | malformed (error : SyntaxError)
  /-- An operation overflowed; `expression` is the printed operation. -/
  | overflow (expression : Text) (span : Span)
  /-- A power is no real number. -/
  | undefined (expression : Text) (span : Span)
  | nestingTooDeep (limit : Nat) (span : Span)
  deriving DecidableEq

/-- How an error is presented. -/
inductive ErrorCategory where
  | invalidInput
  | malformedSyntax
  | overflow
  | other
  deriving DecidableEq

namespace EvalError

/-- The error that a syntax error is. -/
def ofSyntaxError (e : SyntaxError) : EvalError :=
  match e.fault with
  | .nestingTooDeep limit => nestingTooDeep limit e.span
  | _ => malformed e

/-- The error of an operation that has no value. -/
def ofFault (fault : ArithmeticFault) (expression : Text) (span : Span) : EvalError :=
  match fault with
  | .overflow => overflow expression span
  | .undefined => undefined expression span

/-- How the error is presented. -/
def category : EvalError → ErrorCategory
  | invalid _ => .invalidInput
  | malformed _ => .malformedSyntax
  | overflow .. => .overflow
  | undefined .. | nestingTooDeep .. => .other

/-- The part of the text that the error is about. -/
def span : EvalError → Span
  | invalid e => e.span
  | malformed e => e.span
  | overflow _ span | undefined _ span | nestingTooDeep _ span => span

/-- The error in words. -/
def message : EvalError → String
  | invalid e => e.message
  | malformed e => e.message
  | overflow expression _ =>
    let expression := String.ofList expression
    s!"the result of '{expression}' is too large to calculate"
  | undefined expression _ =>
    let expression := String.ofList expression
    s!"'{expression}' has no real result"
  | nestingTooDeep limit _ => (SyntaxFault.nestingTooDeep limit).message

end EvalError

end Abacus
