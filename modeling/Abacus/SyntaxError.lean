import Abacus.Token

/-!
# Syntax errors

What can be wrong with a list of tokens, and where. An error stands at the token that was
not expected; when the tokens have run out, it stands at the empty span where they end.
-/

namespace Abacus

/-- What is wrong with a list of tokens. -/
inductive SyntaxFault where
  | emptyExpression
  /-- Another token stands where an operand must follow. -/
  | missingOperand (found : Text)
  | danglingOperator
  | unclosedParenthesis
  | unexpectedClosingParenthesis
  /-- An operand follows an operand. -/
  | missingOperator (found : Text)
  /-- A character that no expression contains. -/
  | unexpectedToken (found : Text)
  /-- More than `limit` parentheses are open at once. -/
  | nestingTooDeep (limit : Nat)
  deriving DecidableEq

/-- A fault and the bytes it is blamed on. -/
structure SyntaxError where
  fault : SyntaxFault
  span : Span
  deriving DecidableEq

namespace SyntaxFault

/-- The fault in words. -/
def message : SyntaxFault → String
  | emptyExpression => "the expression is empty"
  | missingOperand found =>
    let found := String.ofList found
    s!"too many operators: expected a number or '(' but found '{found}'"
  | danglingOperator => "too many operators: the expression ends with an operator"
  | unclosedParenthesis => "unbalanced parentheses: missing ')'"
  | unexpectedClosingParenthesis => "unbalanced parentheses: unexpected ')'"
  | missingOperator found =>
    let found := String.ofList found
    s!"missing operator before '{found}'"
  | unexpectedToken found =>
    let found := String.ofList found
    s!"unexpected input '{found}'"
  | nestingTooDeep limit => s!"the expression is nested deeper than {limit} levels"

/-- Advice on how to mend a fault. -/
def help? : SyntaxFault → Option String
  | emptyExpression => some "Enter a mathematical expression such as '1+2'"
  | missingOperand _ => some "Each operator needs a number or '(' on its right"
  | danglingOperator => some "Add an operand after the last operator"
  | unclosedParenthesis => some "Did you forget a closing ')'?"
  | unexpectedClosingParenthesis => some "Did you forget a matching '(' earlier?"
  | missingOperator _ => some "Implicit multiplication is not supported; write '*' explicitly"
  | nestingTooDeep _ => some "Remove redundant parentheses"
  | unexpectedToken _ => none

/-- The fault of a token that follows a complete operand. -/
def afterOperand (t : Token) : SyntaxFault :=
  if t.kind.startsOperand then missingOperator t.lexeme else unexpectedToken t.lexeme

end SyntaxFault

namespace SyntaxError

/-- A fault at the first of the tokens that are left, or at offset `stop` if none are. -/
def anchor (tokens : List Token) (fault : SyntaxFault) (stop : Nat) : SyntaxError :=
  match tokens with
  | [] => ⟨fault, .empty stop⟩
  | token :: _ => ⟨fault, token.span⟩

/-- The error for tokens that fit nothing, when no more is known than where they are. -/
def refusal : List Token → SyntaxError
  | [] => ⟨.danglingOperator, .empty 0⟩
  | token :: _ => ⟨.unexpectedToken token.lexeme, token.span⟩

/-- The error in words. -/
def message (e : SyntaxError) : String := e.fault.message

end SyntaxError

end Abacus
