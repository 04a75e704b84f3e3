import Abacus.Token.Lexer

/-!
# Validation

Before a text is parsed, three checks reject it, the first that finds something winning:

1. every character is a digit, an operator or a parenthesis;
2. no `+` or `-` stands as the sign of an operand, at the start or after an operator;
3. no number is larger than `maxOperand`.

Everything else that can be wrong with a text is left to the parser.
-/

namespace Abacus

/-- The largest operand that a text may contain, the largest 32-bit integer. -/
def maxOperand : Int64 := 2147483647

/-- Whether expressions are made of a character. -/
def isExpressionChar (c : Char) : Bool :=
  c.isDigit || (Operator.ofSymbol? c).isSome || c == '(' || c == ')'

/-- Why a text is rejected before it is parsed; `position` is a byte offset. -/
inductive ValidationError where
  | illegalCharacter (character : Char) (position : Nat)
  | signedOperand (sign : Char) (position : Nat)
  | operandOutOfRange (operand : Text) (position : Nat)
  deriving DecidableEq

namespace ValidationError

/-- Where the rejected piece starts. -/
def position : ValidationError → Nat
  | illegalCharacter _ position | signedOperand _ position | operandOutOfRange _ position =>
    position

/-- The rejected piece of the text. -/
def fragment : ValidationError → Text
  | illegalCharacter character _ => [character]
  | signedOperand sign _ => [sign]
  | operandOutOfRange operand _ => operand

/-- The bytes of the rejected piece. -/
def span (e : ValidationError) : Span := ⟨e.position, e.position + Text.byteSize e.fragment⟩

/-- The error in words. -/
def message (e : ValidationError) : String :=
  let found := String.ofList e.fragment
  let position := e.position
  match e with
  | illegalCharacter .. =>
    s!"The expression contains illegal characters. Found '{found}' at position {position}."
  | signedOperand .. =>
    s!"The expression contains number prefixes which are unsupported. " ++
      s!"Found sign '{found}' at position {position}."
  | operandOutOfRange .. =>
    s!"The expression contains values that cannot be interpreted as positive 32 bit integers. " ++
      s!"Found '{found}' at position {position}."

end ValidationError

namespace Validation

/-- The first character that no expression contains, with its offset; the text starts at
`offset`. -/
def illegalCharacter? (offset : Nat) : Text → Option ValidationError
  | [] => none
  | c :: rest =>
    if isExpressionChar c then illegalCharacter? (offset + c.utf8Size) rest
    else some (.illegalCharacter c offset)

/-- The first sign that stands before an operand, with nothing or an operator before it;
`previous` is the token before the list. -/
def signedOperand? (previous : Option Token) : List Token → Option ValidationError
  | [] => none
  | token :: rest =>
    if token.kind.isSign && previous.all (·.kind.isOperator) &&
        rest.head?.any (·.kind.startsOperand) then
      some (.signedOperand (if token.kind = .operator .add then '+' else '-') token.offset)
    else signedOperand? (some token) rest

/-- The first number that is too large. -/
def operandOutOfRange? : List Token → Option ValidationError
  | [] => none
  | token :: rest =>
    match token.kind with
    | .integer value =>
      if 0 ≤ value && value ≤ maxOperand then operandOutOfRange? rest
      else some (.operandOutOfRange token.lexeme token.offset)
    | _ => operandOutOfRange? rest

end Validation

open Validation in
/-- The first reason to reject a text before it is parsed. -/
def validate (s : Text) : Except ValidationError Unit :=
  match illegalCharacter? 0 s with
  | some e => .error e
  | none =>
    match signedOperand? none (tokenize s) with
    | some e => .error e
    | none =>
      match operandOutOfRange? (tokenize s) with
      | some e => .error e
      | none => .ok ()

end Abacus
