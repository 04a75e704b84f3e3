import Abacus.Span
import Abacus.Text.Quoted
import Abacus.Value

/-!
# Log records

What a run tells about its work. A record has a level, the name of the part of the program
it speaks for, and a message. Records are data; whether they are printed is decided by the
program.
-/

namespace Abacus

/-- How much detail a record is. -/
inductive RecordLevel where
  | trace
  | debug
  deriving DecidableEq

/-- Something that a run tells about its work. -/
inductive Record where
  /-- A character that no expression contains was read. -/
  | invalidInput (lexeme : Text) (column : Nat)
  /-- A text of so many tokens passed validation. -/
  | validated (source : Text) (tokens : Nat)
  /-- So many tokens are going to be parsed. -/
  | parsing (tokens : Nat)
  /-- An expression was parsed from a span. -/
  | parsed (span : Span)
  /-- So many powers of an expression are going to be reduced. -/
  | reducing (powers : Nat) (expression : Text)
  /-- One power was computed. -/
  | power (base exponent : Binary64) (value : Value)
  /-- An expression was reduced to another one. -/
  | reduced (expression : Text)
  /-- A text was evaluated. -/
  | evaluated (source : Text) (value : Value)
  /-- A line is going to be read, and not from a terminal. -/
  | noTerminal

namespace RecordLevel

/-- The name of a level. -/
def text : RecordLevel → String
  | trace => "TRACE"
  | debug => "DEBUG"

end RecordLevel

namespace Record

/-- The level of a record. -/
def level : Record → RecordLevel
  | invalidInput .. | validated .. | parsed _ | reducing .. | power .. => .trace
  | parsing _ | reduced _ | evaluated .. | noTerminal => .debug

/-- The part of the program that a record speaks for. -/
def target : Record → String
  | invalidInput .. => "reckon_lexer::lexer"
  | validated .. => "reckon_lexer::validate"
  | parsing _ => "reckon_parser::parser"
  | parsed _ => "reckon_parser::parser::expressions"
  | reducing .. | power .. | reduced _ => "reckon_eval::reduce"
  | evaluated .. => "reckon_eval"
  | noTerminal => "rustyline"

/-- The message of a record. -/
def message : Record → String
  | invalidInput lexeme column =>
    let quoted := String.ofList lexeme.quoted
    s!"invalid input {quoted} at column {column}"
  | validated source tokens =>
    let quoted := String.ofList source.quoted
    s!"validated {quoted} ({tokens} tokens)"
  | parsing tokens => s!"parsing {tokens} tokens"
  | parsed span =>
    let start := span.start
    let stop := span.stop
    s!"parsed expression spanning Span \x7b start: {start}, end: {stop} \x7d"
  | reducing powers expression =>
    let expression := String.ofList expression
    s!"reducing {powers} exponent(s) in {expression}"
  | power base exponent value =>
    let base := String.ofList base.plain
    let exponent := String.ofList exponent.plain
    let value := String.ofList value.text
    s!"{base}^{exponent} = {value}"
  | reduced expression =>
    let expression := String.ofList expression
    s!"reduced expression: {expression}"
  | evaluated source value =>
    let source := String.ofList source
    let value := String.ofList value.text
    s!"{source} = {value}"
  | noTerminal => "stdin is not a tty"

/-- The line that is printed for a record. -/
def line (r : Record) : String :=
  let level := r.level.text
  let target := r.target
  let message := r.message
  s!"[{level} {target}] {message}"

end Record

end Abacus
