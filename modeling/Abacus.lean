import Abacus.Text
import Abacus.Span
import Abacus.Binary64.Arithmetic
import Abacus.Binary64.Power
import Abacus.Decimal.Notation
import Abacus.Validation
import Abacus.Main
import Abacus.Expr.Json
import Abacus.Report
import Abacus.Traced
import Abacus.Text.Blank
import Abacus.EvalError
import Abacus.Diagnostic
import Abacus.Expr.Parser
import Abacus.Expr.Printer
import Abacus.Proofs.Shape
import Abacus.Proofs.Grammar
import Abacus.Proofs.Reading
import Abacus.Proofs.Recognition
import Abacus.Proofs.ReducedValue
import Abacus.Proofs.Splice
import Abacus.Proofs.SplicedValue
import Abacus.Proofs.Nesting
import Abacus.Proofs.Printing
import Abacus.Proofs.RoundTrip
import Abacus.Proofs.Validated
import Abacus.Proofs.Reduct
import Abacus.Proofs.Shift
import Abacus.Proofs.Tiling
import Abacus.Proofs.Slices
import Abacus.Proofs.Failure
import Abacus.Proofs.Blame
import Abacus.Proofs.Nested
import Abacus.Proofs.Rounding
import Abacus.Proofs.Finite
import Abacus.Proofs.Undefined
import Abacus.Proofs.ExactValue
import Abacus.Proofs.IntegerText
import Abacus.Proofs.Rejection
import Abacus.Proofs.Interchange
import Abacus.Proofs.Replacement
import Abacus.Proofs.JsonText
import Abacus.Proofs.JsonTree
import Abacus.Proofs.JsonRoundTrip
import Abacus.Proofs.NumberText
import Abacus.Proofs.JsonDoubles
import Abacus.Proofs.Grouping
import Abacus.Proofs.IntegerPower
import Abacus.Proofs.Pieces
import Abacus.Proofs.ReducedText
import Abacus.Proofs.SmallPower
import Abacus.Proofs.Tokenization
import Abacus.Proofs.Verdict
import Abacus.Proofs.FewestParentheses
import Abacus.Proofs.Retyping
import Abacus.Proofs.Underline
import Abacus.Proofs.PowerRecords
import Abacus.Proofs.Descent
import Abacus.Proofs.Lookahead
