import Abacus.Token

/-!
# From text to tokens

A text falls into *lexemes*: runs of digits that are as long as possible, and every other
character by itself. Blanks are characters like any other; they only turn out to be of no
use. The kind of a lexeme is decided by the lexeme alone, and its place by the lexemes
before it, so `tokenize` neither loses nor invents anything.
-/

namespace Abacus

/-- The longest runs of digits, and all other characters one by one, in order. -/
def Text.lexemes (s : Text) : List Text := s.splitBy fun a b => a.isDigit && b.isDigit

namespace TokenKind

/-- The largest value of an integer token, the largest 64-bit integer. -/
def maxInteger : Nat := 9223372036854775807

/-- The kind of a character that is no digit. -/
def ofChar (c : Char) : TokenKind :=
  match Operator.ofSymbol? c with
  | some op => operator op
  | none => if c = '(' then leftParen else if c = ')' then rightParen else invalid

/-- The kind of a lexeme. -/
def ofLexeme : Text → TokenKind
  | [] => invalid
  | c :: rest =>
    if c.isDigit then integer (Int64.ofNat (min (Text.toNat (c :: rest)) maxInteger))
    else ofChar c

end TokenKind

namespace Token

/-- The tokens of successive lexemes, the first at a given column and offset. -/
def place (column offset : Nat) : List Text → List Token
  | [] => []
  | lexeme :: rest =>
    ⟨.ofLexeme lexeme, lexeme, column, offset⟩ ::
      place (column + lexeme.length) (offset + Text.byteSize lexeme) rest

end Token

/-- The tokens of a text, in order. -/
def tokenize (s : Text) : List Token := Token.place 1 0 s.lexemes

@[simp] theorem Token.place_nil (column offset : Nat) : Token.place column offset [] = [] := rfl

/-- Placing keeps the lexemes as they are. -/
@[simp] theorem Token.map_lexeme_place (column offset : Nat) (lexemes : List Text) :
    (Token.place column offset lexemes).map Token.lexeme = lexemes := by
  induction lexemes generalizing column offset with
  | nil => rfl
  | cons lexeme rest ih => simp [Token.place, ih]

/-- The lexemes of the tokens are the lexemes of the text. -/
@[simp] theorem map_lexeme_tokenize (s : Text) : (tokenize s).map Token.lexeme = s.lexemes :=
  Token.map_lexeme_place 1 0 _

end Abacus
