import Abacus.Json

/-!
# Writing JSON

A value is written over several lines: each item and each member has a line of its own, two
blanks further in than the brackets around it, and a key is followed by a colon and a blank.
An array or object with nothing in it is its brackets.
-/

namespace Abacus

namespace Json

/-- The start of a line at a given depth. -/
def newLine (depth : Nat) : Text := '\n' :: List.replicate (2 * depth) ' '

mutual

/-- A value, whose first line stands at a given depth. -/
def render (depth : Nat) : Json → Text
  | null => "null".toList
  | bool true => "true".toList
  | bool false => "false".toList
  | number n => n.text
  | string raw => '"' :: raw ++ ['"']
  | array [] => "[]".toList
  | array (item :: items) =>
    '[' :: newLine (depth + 1) ++ item.render (depth + 1) ++ renderItems (depth + 1) items ++
      newLine depth ++ [']']
  | object [] => "\x7b\x7d".toList
  | object ((key, value) :: members) =>
    '\x7b' :: newLine (depth + 1) ++ '"' :: key ++ "\": ".toList ++ value.render (depth + 1) ++
      renderMembers (depth + 1) members ++ newLine depth ++ ['\x7d']

/-- The items of an array after the first one. -/
def renderItems (depth : Nat) : List Json → Text
  | [] => []
  | item :: items => ',' :: newLine depth ++ item.render depth ++ renderItems depth items

/-- The members of an object after the first one. -/
def renderMembers (depth : Nat) : List (Text × Json) → Text
  | [] => []
  | (key, value) :: members =>
    ',' :: newLine depth ++ '"' :: key ++ "\": ".toList ++ value.render depth ++
      renderMembers depth members

end

/-- The text of a value. -/
def text (json : Json) : Text := json.render 0

end Json

end Abacus
