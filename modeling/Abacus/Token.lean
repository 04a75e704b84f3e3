import Abacus.Operator
import Abacus.Span

/-!
# Tokens

A token is a piece of text with its kind and its place: the byte offset at which it starts,
which spans are made of, and the column, counted in characters from 1, which people are told.
-/

namespace Abacus

/-- What a piece of text is. -/
inductive TokenKind where
  /-- A run of digits, with its value; a value past the 64-bit range is cut to the largest. -/
  | integer (value : Int64)
  /-- One of the five operators. -/
  | operator (op : Operator)
  | leftParen
  | rightParen
  /-- A character that no expression may contain. -/
  | invalid
  deriving DecidableEq

namespace TokenKind

/-- Whether it is one of the five operators. -/
def isOperator : TokenKind → Bool
  | operator _ => true
  | _ => false

/-- Whether it could be read as the sign of a number. -/
def isSign : TokenKind → Bool
  | operator .add | operator .sub => true
  | _ => false

/-- Whether an operand can begin with it. -/
def startsOperand : TokenKind → Bool
  | integer _ | leftParen => true
  | _ => false

/-- The operator it is. -/
def operator? : TokenKind → Option Operator
  | operator op => some op
  | _ => none

/-- The kind as people are shown it. -/
def text : TokenKind → Text
  | integer value => Text.ofInt value.toInt
  | operator op => [op.symbol]
  | leftParen => ['(']
  | rightParen => [')']
  | invalid => "<invalid>".toList

end TokenKind

/-- A piece of text, what it is, and where it starts. -/
structure Token where
  kind : TokenKind
  /-- The text of the token. -/
  lexeme : Text
  /-- The column of its first character, from 1. -/
  column : Nat
  /-- The byte offset of its first character, from 0. -/
  offset : Nat
  deriving DecidableEq

namespace Token

/-- The byte offset just past a token. -/
def stop (t : Token) : Nat := t.offset + Text.byteSize t.lexeme

/-- The bytes that a token takes. -/
def span (t : Token) : Span := ⟨t.offset, t.stop⟩

end Token

end Abacus
