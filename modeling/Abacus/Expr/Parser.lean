import Abacus.Expr
import Abacus.SyntaxError

/-!
# From tokens to an expression

The grammar, from the weakest level to the tightest; all levels group to the left:

    sum     :=  product (("+" | "-") product)*
    product :=  power (("*" | "/") power)*
    power   :=  operand ("^" operand)*
    operand :=  integer | "(" sum ")"

The parser is one pass over the tokens with two states: an operand is due, or one has just
been read. It keeps the chains that still wait for their next operand, at most one for each
level (`Pending`), and one such record for each parenthesis that is open (`Group`). An
operator closes the chains of tighter levels and extends or opens the chain of its own; a
closing parenthesis closes all chains since its opening one. Each token is looked at once,
so the recursion is on the list of tokens.

Each repetition of the grammar with at least one operator becomes one flat chain. A
parenthesis adds no node: it widens the span of the node inside it.
-/

namespace Abacus

/-- A chain whose last operator waits for its right operand. -/
structure OpenChain where
  first : Expr
  /-- The complete links, the last one first. -/
  links : List Link
  /-- The operator that waits. -/
  operator : Operator

namespace OpenChain

/-- Give the waiting operator its operand, and complete the chain; an operand that no chain
waits for stays as it is. -/
def close (chain? : Option OpenChain) (e : Expr) : Expr :=
  match chain? with
  | none => e
  | some chain => .ofChain chain.first (⟨chain.operator, e⟩ :: chain.links).reverse

/-- Give the waiting operator its operand, and add another operator; an operand that no chain
waits for begins a new chain. -/
def extend (chain? : Option OpenChain) (e : Expr) (op : Operator) : OpenChain :=
  match chain? with
  | none => ⟨e, [], op⟩
  | some chain => ⟨chain.first, ⟨chain.operator, e⟩ :: chain.links, op⟩

end OpenChain

/-- The chains that wait for an operand, a tighter one being part of the operand that a
weaker one waits for. -/
structure Pending where
  sum : Option OpenChain
  product : Option OpenChain
  power : Option OpenChain

namespace Pending

/-- No chain waits. -/
def empty : Pending := ⟨none, none, none⟩

/-- Take in an operand and the operator after it. -/
def push (p : Pending) (e : Expr) (op : Operator) : Pending :=
  match op with
  | .pow => { p with power := some (OpenChain.extend p.power e op) }
  | .mul | .div => ⟨p.sum, some (OpenChain.extend p.product (OpenChain.close p.power e) op), none⟩
  | .add | .sub =>
    ⟨some (OpenChain.extend p.sum (OpenChain.close p.product (OpenChain.close p.power e)) op),
      none, none⟩

/-- Take in the last operand, and complete all chains. -/
def finish (p : Pending) (e : Expr) : Expr :=
  OpenChain.close p.sum (OpenChain.close p.product (OpenChain.close p.power e))

end Pending

/-- An open parenthesis. -/
structure Group where
  /-- The chains that wait for the value of the parentheses. -/
  before : Pending
  /-- The span of the opening parenthesis. -/
  opening : Span

/-- What a run of the parser depends on besides the tokens. -/
structure ParserSettings where
  /-- How many parentheses may be open at once. -/
  maxDepth : Nat
  /-- Outside of parentheses, operators of a lower precedence end the expression. -/
  minPrecedence : Nat
  /-- How many parentheses are open already. -/
  nesting : Nat
  /-- Where the tokens end, for errors at the end. -/
  stop : Nat

namespace Expr

mutual

/-- Read on where an operand is due: `groups` are the open parentheses, the innermost first,
and `pending` the chains that wait inside the innermost one. -/
def readOperand (settings : ParserSettings) (groups : List Group) (pending : Pending) :
    List Token → Except SyntaxError (Expr × List Token)
  | [] => .error ⟨.danglingOperator, .empty settings.stop⟩
  | token :: rest =>
    match token.kind with
    | .integer value =>
      readOperator settings groups pending (.literal (.int value) token.span) rest
    | .leftParen =>
      if settings.maxDepth ≤ settings.nesting + groups.length then
        .error ⟨.nestingTooDeep settings.maxDepth, token.span⟩
      else readOperand settings (⟨pending, token.span⟩ :: groups) .empty rest
    | .invalid => .error ⟨.unexpectedToken token.lexeme, token.span⟩
    | .operator _ | .rightParen => .error ⟨.missingOperand token.lexeme, token.span⟩

/-- Read on after the operand `e`. The answer is the expression and the tokens after it. -/
def readOperator (settings : ParserSettings) (groups : List Group) (pending : Pending)
    (e : Expr) : List Token → Except SyntaxError (Expr × List Token)
  | [] =>
    match groups with
    | [] => .ok (pending.finish e, [])
    | _ :: _ => .error ⟨.unclosedParenthesis, .empty settings.stop⟩
  | token :: rest =>
    match groups with
    | [] =>
      match token.kind with
      | .operator op =>
        if op.precedence < settings.minPrecedence then .ok (pending.finish e, token :: rest)
        else readOperand settings [] (pending.push e op) rest
      | _ => .ok (pending.finish e, token :: rest)
    | group :: outer =>
      match token.kind with
      | .operator op => readOperand settings (group :: outer) (pending.push e op) rest
      | .rightParen =>
        readOperator settings outer group.before
          ((pending.finish e).withSpan (group.opening.cover token.span)) rest
      | _ => .error ⟨.afterOperand token, token.span⟩

end

/-- Read one expression from the front of the tokens, and give back the tokens after it. -/
def parseLeading (settings : ParserSettings) (tokens : List Token) :
    Except SyntaxError (Expr × List Token) :=
  readOperand settings [] .empty tokens

/-- The offset at which a list of tokens ends. -/
def endOf (tokens : List Token) : Nat := (tokens.getLast?.map Token.stop).getD 0

/-- The expression that a list of tokens is, with at most `maxDepth` parentheses open at
once. Any token left over is an error. -/
def parse (maxDepth : Nat) (tokens : List Token) : Except SyntaxError Expr :=
  let stop := endOf tokens
  if tokens.isEmpty then .error ⟨.emptyExpression, .empty stop⟩
  else
    match parseLeading ⟨maxDepth, 0, 0, stop⟩ tokens with
    | .error e => .error e
    | .ok (e, []) => .ok e
    | .ok (_, token :: _) =>
      let fault :=
        if token.kind = .rightParen then .unexpectedClosingParenthesis else .afterOperand token
      .error ⟨fault, token.span⟩

end Expr

end Abacus
