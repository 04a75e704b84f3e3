import Abacus.Text

/-!
# Escapes in JSON strings

Between its quotes a string may not contain control characters, and a backslash begins an
escape. Most escapes stand for a character; `\u` and four hexadecimal digits stand for half
of one if the code is that of a surrogate. A string is *well escaped* if each of its escapes
is one, and it is a text if moreover the halves come in pairs, the high one first.
-/

namespace Abacus

namespace Escape

/-- A piece of a string: a character, or half of one. -/
inductive Piece where
  | char (c : Char)
  | half (code : Nat)
  deriving DecidableEq

/-- The value of a hexadecimal digit, in either case. -/
def hexDigit? (c : Char) : Option Nat :=
  if c.isDigit then some (c.toNat - '0'.toNat)
  else if 'a' ≤ c && c ≤ 'f' then some (c.toNat - 'a'.toNat + 10)
  else if 'A' ≤ c && c ≤ 'F' then some (c.toNat - 'A'.toNat + 10)
  else none

/-- The value of four hexadecimal digits. -/
def hexCode? (a b c d : Char) : Option Nat := do
  return 4096 * (← hexDigit? a) + 256 * (← hexDigit? b) + 16 * (← hexDigit? c) + (← hexDigit? d)

/-- The character that a backslash and a letter stand for. -/
def ofLetter? (c : Char) : Option Char :=
  match c with
  | '"' => some '"'
  | '\\' => some '\\'
  | '/' => some '/'
  | 'b' => some '\x08'
  | 'f' => some '\x0c'
  | 'n' => some '\n'
  | 'r' => some '\r'
  | 't' => some '\t'
  | _ => none

/-- Whether a code is half of a character, the first or the second one. -/
def isHalf (code : Nat) : Bool := 0xd800 ≤ code && code < 0xe000

/-- The pieces of a string that is well escaped. -/
def pieces? : Text → Option (List Piece)
  | [] => some []
  | '\\' :: 'u' :: a :: b :: c :: d :: rest => do
    let code ← hexCode? a b c d
    let more ← pieces? rest
    return (if isHalf code then .half code else .char (Char.ofNat code)) :: more
  | '\\' :: c :: rest => do
    let char ← ofLetter? c
    let more ← pieces? rest
    return .char char :: more
  | c :: rest =>
    if c = '\\' || c = '"' || c < ' ' then none
    else do
      let more ← pieces? rest
      return .char c :: more

/-- The text of pieces, if all halves pair up. -/
def join? : List Piece → Option Text
  | [] => some []
  | .char c :: rest => (join? rest).map (c :: ·)
  | .half high :: .half low :: rest =>
    if high < 0xdc00 && 0xdc00 ≤ low then
      let c := Char.ofNat (0x10000 + (high - 0xd800) * 0x400 + (low - 0xdc00))
      (join? rest).map (c :: ·)
    else none
  | .half _ :: _ => none

/-- Whether a string is well escaped. -/
def isWellEscaped (raw : Text) : Bool := (pieces? raw).isSome

/-- The text that a string says. -/
def text? (raw : Text) : Option Text := (pieces? raw).bind join?

end Escape

end Abacus
