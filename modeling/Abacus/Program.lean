import Abacus.CommandLine
import Abacus.Expr.Json
import Abacus.Session
import Abacus.Text.Typed

/-!
# A run of the program

With an expression among its arguments the program prints one answer and ends; without one
it answers the lines it is given until it is told to stop. Results go to the output, errors
and log records to the error output. The exit code is 0 for an answer and for a session, 1
for an expression without a value, and 2 for arguments that make no sense.
-/

namespace Abacus

namespace Program

/-- What a run leaves behind. -/
structure Outcome where
  code : Nat
  stdout : String
  stderr : String
  deriving DecidableEq

/-- The answer to a request for the version. -/
def version : String := "reckon 0.1.0"

/-- The answer to a request for help. -/
def usage : String :=
  "\n".intercalate
    ["Evaluate integer arithmetic expressions",
     "",
     "Usage: reckon [OPTIONS] [EXPRESSION]",
     "",
     "Options:",
     "      --ast            Print the expression as JSON instead of its value",
     "      --reduce         Print the expression with its powers reduced instead",
     "      --max-depth <N>  How many parentheses may be open at once [default: 100]",
     "  -v, --verbose        Tell more about the work (-v, -vv, -vvv)",
     "  -h, --help           Print help",
     "  -V, --version        Print version"]

/-- A usage error in words. -/
def usageMessage : UsageError → String
  | .unknownArgument => "error: unexpected argument"
  | .argumentConflict => "error: arguments cannot be used together"
  | .badValue => "error: invalid value for '--max-depth <N>'"
  | .missingValue => "error: a value is required for '--max-depth <N>'"
  | .unexpectedValue => "error: unexpected value for an option that takes none"
  | .helpRequested => usage
  | .versionRequested => version

/-- Each line with an end of line behind it. -/
def unlines (lines : List String) : String := String.join (lines.map (· ++ "\n"))

/-- How a run ends whose arguments are no options. -/
def stopped (e : UsageError) : Outcome :=
  let text := unlines [usageMessage e]
  match e with
  | .helpRequested | .versionRequested => ⟨0, text, ""⟩
  | _ => ⟨2, "", text⟩

/-- Whether a record is printed: at the third level of detail everything is, at the second
all but traces. -/
def isShown (verbosity : Nat) (r : Record) : Bool :=
  match r.level with
  | .debug => 2 ≤ verbosity
  | .trace => 3 ≤ verbosity

/-- The lines for the records that are printed. -/
def logLines (verbosity : Nat) (records : List Record) : List String :=
  (records.filter (isShown verbosity)).map Record.line

/-- What is printed for an expression. -/
def answer (options : Options) (expression : Text) : Traced EvalError String :=
  let calculator := Calculator.standard options.maxDepth
  if options.ast then do
    let e ← calculator.parse expression
    pure (String.ofList e.jsonText)
  else if options.reduce then do
    let e ← calculator.reduce expression
    pure (String.ofList e.text)
  else do
    let evaluation ← calculator.evaluate expression
    pure (String.ofList evaluation.value.toReal.text)

/-- A run for one expression. At any level of detail an error is shown in its place. -/
def once (options : Options) (expression : Text) : Outcome :=
  let run := answer options expression
  let logs := logLines options.verbosity run.records
  match run.outcome with
  | .ok result => ⟨0, unlines [result], unlines logs⟩
  | .error e =>
    let snippet := if 0 < options.verbosity then [e.snippet expression] else []
    ⟨1, "", unlines (logs ++ e.report :: snippet)⟩

/-- One turn of a session: the lines for the records, the lines of the answer, and whether
the session is over. -/
def turn (options : Options) (line : Text) : List String × List String × Bool :=
  let reply := Session.reply (Calculator.standard options.maxDepth) line
  (logLines options.verbosity reply.records, reply.lines, reply.exit)

/-- The lines that are logged where a line is due and there is no terminal. -/
def awaiting (options : Options) : List String := logLines options.verbosity [.noTerminal]

/-- A session over given lines, none of them typed at a terminal: the lines logged and the
lines printed. -/
def session (options : Options) : List Text → List String × List String
  | [] => (awaiting options, [])
  | line :: rest =>
    let (logs, lines, exit) := turn options line
    if exit then (awaiting options ++ logs, lines)
    else
      let (moreLogs, moreLines) := session options rest
      (awaiting options ++ logs ++ moreLogs, lines ++ moreLines)

/-- The lines of an input, without their ends; `line` is the current one, backwards. A
carriage return before the end of a line belongs to the end. -/
def linesFrom (line : Text) : Text → List Text
  | [] => if line.isEmpty then [] else [line.reverse]
  | c :: rest =>
    if c = '\n' then
      let kept := match line with
        | '\r' :: more => more
        | _ => line
      kept.reverse :: linesFrom [] rest
    else linesFrom (c :: line) rest

/-- The lines of an input that does not come from a terminal, their backspaces carried out. -/
def inputLines (input : Text) : List Text := (linesFrom [] input).map Text.typed

/-- A whole run, the input being given in advance. -/
def run (arguments : List Text) (input : Text) : Outcome :=
  match CommandLine.parse arguments with
  | .error e => stopped e
  | .ok options =>
    match options.expression with
    | some expression => once options expression
    | none =>
      let (logs, lines) := session options (inputLines input)
      ⟨0, unlines lines, unlines logs⟩

end Program

end Abacus
