import Abacus.Json.Escape
import Abacus.Json.Number

/-!
# JSON values

A JSON value as it is written: members of objects stay in order, repeated keys stay
repeated, and strings keep their escapes. What a string says and which double a number is
are questions for whoever uses the value, because a string without a meaning, or a number
that is too large, is harmless where nobody looks at it.
-/

namespace Abacus

/-- A JSON value. -/
inductive Json where
  | null
  | bool (value : Bool)
  | number (value : JsonNumber)
  /-- A string, as it is written between its quotes. -/
  | string (raw : Text)
  | array (items : List Json)
  /-- An object: the keys, written like strings, and their values. -/
  | object (members : List (Text × Json))

namespace Json

/-- The values of the members of an object with a given key. -/
def valuesOf (key : Text) (members : List (Text × Json)) : List Json :=
  (members.filter fun (raw, _) => Escape.text? raw = some key).map Prod.snd

/-- The fields of a record, in the order of `names`. A record is written as an object with
each field exactly once, other members being ignored, or as an array of just the fields. -/
def fields? (names : List String) : Json → Option (List Json)
  | array items => if items.length = names.length then some items else none
  | object members =>
    if members.all fun (raw, _) => (Escape.text? raw).isSome then
      names.mapM fun name =>
        match valuesOf name.toList members with
        | [value] => some value
        | _ => none
    else none
  | _ => none

/-- The two fields of a record. -/
def pair? (first second : String) (json : Json) : Option (Json × Json) := do
  match ← json.fields? [first, second] with
  | [a, b] => some (a, b)
  | _ => none

/-- The case of a variant and its content, written as an object with one member. -/
def variant? : Json → Option (Text × Json)
  | object [(raw, content)] => (Escape.text? raw).map fun name => (name, content)
  | _ => none

end Json

end Abacus
