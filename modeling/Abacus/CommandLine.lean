import Abacus.Calculator

/-!
# The command line

Arguments are read from left to right. An option that is not known, a second value for one
that takes one, help and version end the reading at once. The value of `--max-depth` is the
argument after it, and is looked at only when the next argument that means something has
been found; so of two faults the one that is reported is not always the first one.

After `--`, and with the single character `-`, nothing is an option.
-/

namespace Abacus

/-- What a run was asked for. -/
structure Options where
  /-- The expression to evaluate; a session is started when there is none. -/
  expression : Option Text
  /-- Print the expression as JSON instead of its value. -/
  ast : Bool
  /-- Print the expression after its powers were reduced instead of its value. -/
  reduce : Bool
  /-- How many parentheses may be open at once. -/
  maxDepth : Nat
  /-- How often more detail was asked for. -/
  verbosity : Nat
  deriving DecidableEq

/-- Why there are no options. -/
inductive UsageError where
  /-- An option that is not known, or one expression too many. -/
  | unknownArgument
  /-- Two options that exclude each other, or one given twice. -/
  | argumentConflict
  /-- A depth that is no number. -/
  | badValue
  /-- A depth is asked for but not given. -/
  | missingValue
  /-- A value for an option that takes none. -/
  | unexpectedValue
  | helpRequested
  | versionRequested
  deriving DecidableEq

namespace CommandLine

/-- The number a text is: decimal digits below `2 ^ 64`, with or without a plus sign. -/
def natural? (s : Text) : Option Nat :=
  let digits := match s with
    | '+' :: rest => rest
    | _ => s
  if digits.isEmpty || !digits.all Char.isDigit then none
  else if Text.toNat digits < 1 <<< 64 then some (Text.toNat digits)
  else none

/-- The value of `--max-depth`. -/
inductive Depth where
  | notGiven
  /-- It is the next argument. -/
  | due
  /-- It has been found, and not looked at yet. -/
  | found (value : Text)

/-- What has been read. -/
structure State where
  expression : Option Text
  ast : Bool
  reduce : Bool
  verbosity : Nat
  /-- The depth that has been read and accepted. -/
  maxDepth : Option Nat
  /-- The depth that has not been looked at. -/
  depth : Depth
  /-- Whether options are over. -/
  plain : Bool

/-- Nothing has been read. -/
def State.start : State := ⟨none, false, false, 0, none, .notGiven, false⟩

/-- The most detail that is counted. -/
def maxVerbosity : Nat := 255

namespace State

/-- Accept a value for the depth. -/
def acceptDepth (state : State) (value : Text) : Except UsageError State :=
  if state.maxDepth.isSome then .error .argumentConflict
  else match natural? value with
    | none => .error .badValue
    | some n => .ok { state with maxDepth := some n, depth := .notGiven }

/-- Look at the depth that has been found. -/
def settle (state : State) : Except UsageError State :=
  match state.depth with
  | .notGiven => .ok state
  | .due => .error .missingValue
  | .found value => state.acceptDepth value

/-- Take in the flag `--ast`. -/
def setAst (state : State) : Except UsageError State := do
  let state ← state.settle
  if state.ast then .error .argumentConflict else .ok { state with ast := true }

/-- Take in the flag `--reduce`. -/
def setReduce (state : State) : Except UsageError State := do
  let state ← state.settle
  if state.reduce then .error .argumentConflict else .ok { state with reduce := true }

/-- Take in one request for more detail. -/
def addVerbosity (state : State) : Except UsageError State := do
  let state ← state.settle
  .ok { state with verbosity := min (state.verbosity + 1) maxVerbosity }

/-- End the reading with help or version. -/
def stop (state : State) (request : UsageError) : Except UsageError State := do
  let _ ← state.settle
  .error request

/-- A long option, its name and the value that stands in the same argument. -/
def long (state : State) (name : Text) (value? : Option Text) : Except UsageError State :=
  let flag (result : Except UsageError State) : Except UsageError State :=
    if value?.isSome then .error .unexpectedValue else result
  if name = "max-depth".toList then do
    let state ← state.settle
    match value? with
    | some value => state.acceptDepth value
    | none => .ok { state with depth := .due }
  else if name = "ast".toList then flag state.setAst
  else if name = "reduce".toList then flag state.setReduce
  else if name = "verbose".toList then flag state.addVerbosity
  else if name = "help".toList then flag (state.stop .helpRequested)
  else if name = "version".toList then flag (state.stop .versionRequested)
  else .error .unknownArgument

/-- One letter of a group of short options. -/
def short (state : State) (letter : Char) : Except UsageError State :=
  match letter with
  | 'v' => state.addVerbosity
  | 'h' => state.stop .helpRequested
  | 'V' => state.stop .versionRequested
  | _ => .error .unknownArgument

/-- An argument that is no option. -/
def positional (state : State) (argument : Text) : Except UsageError State :=
  if state.expression.isSome then .error .unknownArgument
  else do
    let state ← state.settle
    .ok { state with expression := some argument }

/-- The next argument. -/
def step (state : State) (argument : Text) : Except UsageError State :=
  if state.plain then state.positional argument
  else match argument with
    | ['-', '-'] => .ok { state with plain := true }
    | '-' :: '-' :: rest =>
      let name := rest.takeWhile (· ≠ '=')
      let value? := match rest.dropWhile (· ≠ '=') with
        | _ :: value => some value
        | [] => none
      state.long name value?
    | '-' :: letter :: rest => (letter :: rest).foldlM short state
    | _ =>
      match state.depth with
      | .due => .ok { state with depth := .found argument }
      | _ => state.positional argument

/-- What the arguments ask for, once all of them have been read. -/
def finish (state : State) : Except UsageError Options := do
  let state ← state.settle
  if state.ast && state.reduce then .error .argumentConflict
  else .ok ⟨state.expression, state.ast, state.reduce, state.maxDepth.getD defaultMaxDepth,
    state.verbosity⟩

end State

/-- The options that arguments stand for. -/
def parse (arguments : List Text) : Except UsageError Options := do
  let state ← arguments.foldlM State.step State.start
  state.finish

end CommandLine

end Abacus
