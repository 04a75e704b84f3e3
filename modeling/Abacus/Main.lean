import Abacus.Program

/-!
# The program

The layer between the system and `Abacus.Program`: it passes arguments and lines in and
prints what comes out.
-/

namespace Abacus

namespace Main

/-- Print lines. -/
def printAll (stream : IO.FS.Stream) (lines : List String) : IO Unit := do
  for line in lines do
    stream.putStrLn line
  stream.flush

/-- Answer lines until the input ends or a line asks to stop. -/
partial def interact (options : Options) : IO Unit := do
  let input ← IO.getStdin
  let output ← IO.getStdout
  if ← input.isTty then
    output.putStr Session.prompt
    output.flush
  else printAll (← IO.getStderr) (Program.awaiting options)
  match Program.inputLines (← input.getLine).toList with
  | [] => return
  | line :: _ =>
    let (logs, lines, exit) := Program.turn options line
    printAll (← IO.getStderr) logs
    printAll output lines
    unless exit do interact options

end Main

end Abacus

/-- Run the program. -/
def main (arguments : List String) : IO UInt32 := do
  let arguments := arguments.map String.toList
  match Abacus.CommandLine.parse arguments with
  | .ok ⟨none, ast, reduce, maxDepth, verbosity⟩ =>
    Abacus.Main.interact ⟨none, ast, reduce, maxDepth, verbosity⟩
    return 0
  | _ =>
    let outcome := Abacus.Program.run arguments []
    (← IO.getStdout).putStr outcome.stdout
    (← IO.getStderr).putStr outcome.stderr
    return outcome.code.toUInt32
