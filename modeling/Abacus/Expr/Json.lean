import Abacus.Expr
import Abacus.Json.Reader
import Abacus.Json.Writer
import Abacus.Value

/-!
# Expressions as JSON

Each node is an object with one member that says which sort of node it is; a node and its
span stand side by side in a record of their own:

    {"Literal": {"node": {"Int": 7}, "span": {"start": 0, "end": 1}}}
    {"Chain": {"node": {"first": …, "links": [{"operator": "Add", "operand": …}]}, "span": …}}

A reader accepts more than is written: fields in any order, fields it does not know, and
arrays in place of records. What it does not know it does not look into. Arrays and objects
may be nested `maxJsonDepth` deep, counted along the way to what is read.
-/

namespace Abacus

/-- How deeply arrays and objects may be nested around what is read. -/
def maxJsonDepth : Nat := 127

/-! ### Writing -/

namespace Json

/-- A record with named fields. -/
def record (fields : List (String × Json)) : Json :=
  object (fields.map fun (name, value) => (name.toList, value))

/-- A natural number. -/
def nat (n : Nat) : Json := number (.ofInt n)

end Json

/-- The name of an operator. -/
def Operator.name : Operator → String
  | add => "Add"
  | sub => "Sub"
  | mul => "Mul"
  | div => "Div"
  | pow => "Pow"

/-- A span, its last field being called the end. -/
def Span.toJson (span : Span) : Json := .record [("start", .nat span.start), ("end", .nat span.stop)]

/-- A literal. A double that is not finite has no JSON form, and is written as `null`. -/
def Literal.toJson : Literal → Json
  | int n => .record [("Int", .number (.ofInt n.toInt))]
  | real x => .record [("Float", if x.isFinite then .number (.ofReal x) else .null)]

namespace Expr

/-- A node of a given sort, with its span. -/
def nodeJson (sort : String) (node : Json) (span : Span) : Json :=
  .record [(sort, .record [("node", node), ("span", span.toJson)])]

mutual

/-- An expression. -/
def toJson : Expr → Json
  | literal value span => nodeJson "Literal" value.toJson span
  | chain first links span =>
    nodeJson "Chain" (.record [("first", first.toJson), ("links", .array (linksJson links))]) span

/-- The links of a chain. -/
def linksJson : List Link → List Json
  | [] => []
  | ⟨op, operand⟩ :: rest =>
    .record [("operator", .string op.name.toList), ("operand", operand.toJson)] :: linksJson rest

end

end Expr

/-! ### Reading -/

namespace Json

/-- A number of 64 bits without a sign. -/
def toWord? : Json → Option Nat
  | number n => do
    let value ← n.toInt?
    if 0 ≤ value && value < 18446744073709551616 then some value.toNat else none
  | _ => none

/-- An integer of 64 bits. -/
def toInt64? : Json → Option Int64
  | number n => do
    let value ← n.toInt?
    if Value.fits64 value then some (.ofInt value) else none
  | _ => none

/-- A double. -/
def toReal? : Json → Option Binary64
  | number n => n.toReal?
  | _ => none

end Json

/-- The operator of a name. -/
def Operator.ofName? (name : Text) : Option Operator := all.find? (·.name.toList == name)

/-- An operator: its name, or an object with its name and `null`. The object may be inside
of `depth - 1` others. -/
def Operator.ofJson? (depth : Nat) : Json → Option Operator
  | .string raw => (Escape.text? raw).bind ofName?
  | .object [(raw, .null)] => if depth = 0 then none else (Escape.text? raw).bind ofName?
  | _ => none

/-- A span. -/
def Span.ofJson? (json : Json) : Option Span := do
  let (start, stop) ← json.pair? "start" "end"
  return ⟨← start.toWord?, ← stop.toWord?⟩

/-- A literal. -/
def Literal.ofJson? (json : Json) : Option Literal := do
  let (sort, content) ← json.variant?
  if sort = "Int".toList then (content.toInt64?).map int
  else if sort = "Float".toList then (content.toReal?).map real
  else none

namespace Expr

mutual

/-- The expression that a JSON value is, `depth` being how many arrays and objects may be
nested in it. Three of them are the node itself, its record and what is in the record. -/
def ofJson? : (depth : Nat) → Json → Option Expr
  | depth + 3, json => do
    let (sort, content) ← json.variant?
    let (node, span) ← content.pair? "node" "span"
    let span ← Span.ofJson? span
    if sort = "Literal".toList then (Literal.ofJson? node).map (.literal · span)
    else if sort = "Chain".toList then do
      let (first, links) ← node.pair? "first" "links"
      return .chain (← ofJson? depth first) (← linksOfJson? depth links) span
    else none
  | _, _ => none

/-- The links that a JSON value is. Two more arrays and objects stand around an operand. -/
def linksOfJson? : (depth : Nat) → Json → Option (List Link)
  | depth + 2, .array items => items.mapM fun item => do
    let (op, operand) ← item.pair? "operator" "operand"
    return ⟨← Operator.ofJson? depth op, ← ofJson? depth operand⟩
  | _, _ => none

end

/-- The text of an expression as JSON. -/
def jsonText (e : Expr) : Text := e.toJson.text

/-- The expression that a JSON text is. -/
def ofJsonText? (s : Text) : Option Expr := (Json.ofText? s).bind (ofJson? maxJsonDepth)

end Expr

end Abacus
