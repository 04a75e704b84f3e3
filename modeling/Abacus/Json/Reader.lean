import Abacus.Json

/-!
# Reading JSON

A text is read in two passes, each a walk with a small state. The first finds the tokens:
punctuation, strings and words, a word being a number or one of the three names. The second
keeps a stack of the arrays and objects that are still open and what may come next. Neither
recurses into a value, so the depth of a value is not limited here.
-/

namespace Abacus

/-- A token of JSON. -/
inductive JsonToken where
  | openArray
  | closeArray
  | openObject
  | closeObject
  | comma
  | colon
  /-- A number or a name. -/
  | word (letters : Text)
  /-- A string, as it is written between its quotes. -/
  | string (raw : Text)
  deriving DecidableEq

namespace JsonToken

/-- Where a walk over the characters is; what has been read of a token is kept backwards. -/
inductive Place where
  | between
  | inWord (letters : Text)
  | inString (raw : Text)
  /-- Just behind a backslash in a string. -/
  | inEscape (raw : Text)

/-- Whether a character separates tokens and means nothing else. -/
def isBlank (c : Char) : Bool := c = ' ' || c = '\t' || c = '\n' || c = '\r'

/-- Whether a character can be part of a number or a name. -/
def isWordChar (c : Char) : Bool := c.isAlphanum || c = '+' || c = '-' || c = '.'

/-- The token that a character is by itself. -/
def ofChar? (c : Char) : Option JsonToken :=
  match c with
  | '[' => some openArray
  | ']' => some closeArray
  | '\x7b' => some openObject
  | '\x7d' => some closeObject
  | ',' => some comma
  | ':' => some colon
  | _ => none

/-- A character between tokens: the tokens read are kept backwards. -/
def stepBetween (read : List JsonToken) (c : Char) : Option (List JsonToken × Place) :=
  if isBlank c then some (read, .between)
  else if isWordChar c then some (read, .inWord [c])
  else if c = '"' then some (read, .inString [])
  else (ofChar? c).map fun token => (token :: read, .between)

/-- One character. -/
def step (state : List JsonToken × Place) (c : Char) : Option (List JsonToken × Place) :=
  match state with
  | (read, .between) => stepBetween read c
  | (read, .inWord letters) =>
    if isWordChar c then some (read, .inWord (c :: letters))
    else stepBetween (word letters.reverse :: read) c
  | (read, .inString raw) =>
    if c = '"' then
      if Escape.isWellEscaped raw.reverse then some (string raw.reverse :: read, .between)
      else none
    else if c = '\\' then some (read, .inEscape (c :: raw))
    else some (read, .inString (c :: raw))
  | (read, .inEscape raw) => some (read, .inString (c :: raw))

/-- The tokens of a text, unless it ends within a string or has a character that fits
nothing. -/
def ofText? (s : Text) : Option (List JsonToken) := do
  match ← s.foldlM step ([], .between) with
  | (read, .between) => some read.reverse
  | (read, .inWord letters) => some (word letters.reverse :: read).reverse
  | _ => none

end JsonToken

namespace Json

/-- An array or object that is still open; what has been read of it is kept backwards. -/
inductive Frame where
  | array (items : List Json)
  /-- An object and the key whose value is due. -/
  | object (members : List (Text × Json)) (key : Text)

/-- What may come next. -/
inductive Due where
  | value
  /-- A value, or the end of the array that was just opened. -/
  | firstItem
  /-- A key, or the end of the object that was just opened. -/
  | firstKey
  /-- A key, after a comma. -/
  | key (members : List (Text × Json))
  /-- The colon after a key. -/
  | colon (members : List (Text × Json)) (key : Text)
  /-- A comma or an end, after a complete value. -/
  | separator (value : Json)

/-- The value that a word is: one of the three names, or a number. -/
def ofWord? (letters : Text) : Option Json :=
  if letters = "null".toList then some null
  else if letters = "true".toList then some (bool true)
  else if letters = "false".toList then some (bool false)
  else (JsonNumber.ofText? letters).map number

/-- A token where a value is due. -/
def stepValue (stack : List Frame) (token : JsonToken) : Option (List Frame × Due) :=
  match token with
  | .openArray => some (stack, .firstItem)
  | .openObject => some (stack, .firstKey)
  | .word letters => (ofWord? letters).map fun value => (stack, .separator value)
  | .string raw => some (stack, .separator (string raw))
  | _ => none

/-- A token after a complete value. -/
def stepSeparator (stack : List Frame) (value : Json) (token : JsonToken) :
    Option (List Frame × Due) :=
  match stack, token with
  | .array items :: outer, .comma => some (.array (value :: items) :: outer, .value)
  | .array items :: outer, .closeArray =>
    some (outer, .separator (array (value :: items).reverse))
  | .object members key :: outer, .comma => some (outer, .key ((key, value) :: members))
  | .object members key :: outer, .closeObject =>
    some (outer, .separator (object ((key, value) :: members).reverse))
  | _, _ => none

/-- One token. -/
def step (state : List Frame × Due) (token : JsonToken) : Option (List Frame × Due) :=
  match state with
  | (stack, .value) => stepValue stack token
  | (stack, .firstItem) =>
    if token = .closeArray then some (stack, .separator (array []))
    else stepValue (.array [] :: stack) token
  | (stack, .firstKey) =>
    match token with
    | .closeObject => some (stack, .separator (object []))
    | .string raw => some (stack, .colon [] raw)
    | _ => none
  | (stack, .key members) =>
    match token with
    | .string raw => some (stack, .colon members raw)
    | _ => none
  | (stack, .colon members key) =>
    if token = .colon then some (.object members key :: stack, .value) else none
  | (stack, .separator value) => stepSeparator stack value token

/-- The value that tokens are. -/
def ofTokens? (tokens : List JsonToken) : Option Json := do
  match ← tokens.foldlM step ([], .value) with
  | ([], .separator value) => some value
  | _ => none

/-- The value that a text is. -/
def ofText? (s : Text) : Option Json := (JsonToken.ofText? s).bind ofTokens?

end Json

end Abacus
