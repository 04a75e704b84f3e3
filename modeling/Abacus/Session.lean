import Abacus.Report
import Abacus.Text.Blank

/-!
# Interactive sessions

A session answers one line after the other. A line is a command or a text to evaluate.
Commands may have white space around them; a text may not, since blanks are no part of an
expression. A session has no memory: what a line is answered does not depend on the lines
before it.
-/

namespace Abacus

namespace Session

/-- What is shown where a line is due. -/
def prompt : String := "reckon> "

/-- What a line asks for. -/
inductive Command where
  | help
  | exit
  /-- Show a text with its powers reduced. -/
  | reduce (expression : Text)
  /-- Evaluate the line. -/
  | evaluate (line : Text)
  deriving DecidableEq

/-- What a line asks for. The text to reduce begins right behind the name of the command,
with or without a blank between them. -/
def Command.ofLine (line : Text) : Command :=
  let words := line.trim
  if words = ":help".toList then help
  else if words ∈ [":q".toList, ":quit".toList, ":exit".toList] then exit
  else match ":reduce".toList.isPrefixOf? words with
    | some rest => reduce (Text.trim rest)
    | none => evaluate line

/-- The answer to a line. -/
structure Reply where
  /-- What the answering told about its work. -/
  records : List Record
  /-- The lines to print. -/
  lines : List String
  /-- Whether the session is over. -/
  exit : Bool

/-- The commands and operators, in two lines. -/
def helpLines : List String :=
  ["commands: :help, :reduce <expr>, :quit", "operators: + - * / ^ and parentheses, no spaces"]

/-- A result or an error, both being just printed. -/
def shown : Except String String → String
  | .ok s | .error s => s

/-- The answer to a line. -/
def reply (calculator : Calculator) (line : Text) : Reply :=
  match Command.ofLine line with
  | .help => ⟨[], helpLines, false⟩
  | .exit => ⟨[], [], true⟩
  | .reduce expression =>
    let run := calculator.reduce expression
    let result := (run.outcome.map fun e => String.ofList e.text).mapError EvalError.report
    ⟨run.records, [shown result], false⟩
  | .evaluate line =>
    let run := calculator.respond line
    ⟨run.records, [shown run.outcome], false⟩

end Session

end Abacus
