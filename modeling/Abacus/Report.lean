import Abacus.Calculator
import Abacus.Diagnostic

/-!
# What people are told

The words in which the program presents results and errors. An error is told in one line,
which says for some kinds of error no more than the kind; the snippet points at the part of
the text it is about and adds advice.
-/

namespace Abacus

namespace EvalError

/-- The line in which an error is told. -/
def report (e : EvalError) : String :=
  let message := e.message
  match e.category with
  | .invalidInput => s!"The input is invalid. {message}"
  | .malformedSyntax => s!"The expression syntax is malformed. {message}"
  | .overflow => "The result is too large to calculate."
  | .other => "An unexpected error occurred."

/-- Advice on how to mend the text. -/
def help? : EvalError → Option String
  | invalid (.illegalCharacter ..) =>
    some "Only digits, + - * / ^ and parentheses are allowed, without spaces"
  | invalid (.signedOperand ..) => some "Write a negative value as a difference, e.g. 0-5"
  | invalid (.operandOutOfRange ..) => some "Operands must be at most 2147483647"
  | malformed e => e.fault.help?
  | undefined .. => some "A negative base needs an integer exponent"
  | overflow .. | nestingTooDeep .. => none

/-- The error as a message about a part of the text. -/
def diagnostic (e : EvalError) : Diagnostic := ⟨e.message, e.span, e.help?⟩

/-- The error, pointing at the part of the text it is about. -/
def snippet (e : EvalError) (source : Text) : String := e.diagnostic.render source

end EvalError

/-- A syntax error as a message about a part of the text. -/
def SyntaxError.diagnostic (e : SyntaxError) : Diagnostic := ⟨e.message, e.span, e.fault.help?⟩

/-- What is told for an empty line. -/
def emptyInput : String := "Please enter a mathematical expression."

/-- The answer to one line: the value in digits, or the line that tells of the error. -/
def Calculator.respond (calculator : Calculator) (line : Text) : Traced String String :=
  if line.isEmpty then Traced.fail emptyInput
  else do
    let evaluation ← (calculator.evaluate line).mapError EvalError.report
    pure (String.ofList evaluation.value.toReal.text)

end Abacus
