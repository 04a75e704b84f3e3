import Abacus.Span

/-!
# Diagnostics

A diagnostic shows a message together with the text it is about, the piece in question
underlined. The underline is counted in characters. A span that is no part of the text is
shown by one mark, at its start if that is a place in the text, and else past the end.
-/

namespace Abacus

/-- A message about a part of a text. -/
structure Diagnostic where
  message : String
  span : Span
  /-- Advice for the reader. -/
  help : Option String
  deriving DecidableEq

namespace Diagnostic

/-- The number of characters before the span. -/
def column (d : Diagnostic) (source : Text) : Nat :=
  ((source.takeBytes? d.span.start).getD source).length

/-- The number of characters underlined, at least one. -/
def width (d : Diagnostic) (source : Text) : Nat := max (d.span.slice source).length 1

/-- The line of marks below the text. -/
def underline (d : Diagnostic) (source : Text) : Text :=
  List.replicate (d.column source) ' ' ++ '^' :: List.replicate (d.width source - 1) '~'

/-- The message, the column, the text, the underline, and the advice. -/
def render (d : Diagnostic) (source : Text) : String :=
  let column := d.column source + 1
  let message := d.message
  let line := String.ofList source
  let marks := String.ofList (d.underline source)
  let help :=
    match d.help with
    | some advice => s!"\n  = help: {advice}"
    | none => ""
  s!"error: {message}\n --> col {column}\n  | {line}\n  | {marks}{help}"

end Diagnostic

end Abacus
