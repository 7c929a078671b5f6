import Reckon.Number.Reading
import Reckon.Number.Shortest
import Reckon.Text.Quoted
import Reckon.Operand
import Reckon.Token
import Reckon.Parenthesis
import Reckon.Session.Report
import Reckon.Plot.Picture
import Reckon.Main
import Reckon.Proofs.Grammar
import Reckon.Proofs.Token.Scan
import Reckon.Proofs.Outcome
import Reckon.Proofs.Reader.Outcome
import Reckon.Proofs.Grammar.Soundness
import Reckon.Proofs.Grammar.Completeness
import Reckon.Proofs.Reader.Budget
import Reckon.Proofs.Grammar.Theorems
import Reckon.Proofs.Evaluation
import Reckon.Proofs.Equation
import Reckon.Proofs.Evaluation.Closure
import Reckon.Proofs.Session
import Reckon.Proofs.Session.Footprint
import Reckon.Proofs.Session.Capture
import Reckon.Proofs.Evaluation.Bound
import Reckon.Proofs.Arithmetic.Rational
import Reckon.Proofs.Equation.Solution
import Reckon.Proofs.Number.Unpacked
import Reckon.Proofs.Arithmetic.Zero
import Reckon.Proofs.Equation.Constant
import Reckon.Proofs.Store.Sharing
import Reckon.Proofs.Evaluation.Definedness
import Reckon.Proofs.Grammar.Names
import Reckon.Proofs.Session.Regular
import Reckon.Proofs.Evaluation.CallGraph
import Reckon.Proofs.Evaluation.Limit
import Reckon.Proofs.Session.Termination
import Reckon.Proofs.Session.Sampling
import Reckon.Proofs.Reader.Shift
import Reckon.Proofs.Grammar.Assignment
import Reckon.Proofs.Session.Assignment
import Reckon.Proofs.Evaluation.Chain
import Reckon.Proofs.Evaluation.Substitution
import Reckon.Proofs.Number.Exact
import Reckon.Proofs.Number.Underflow
import Reckon.Proofs.Equation.Square
import Reckon.Proofs.Equation.Blame
import Reckon.Proofs.Grammar.Diagnosis
import Reckon.Proofs.Grammar.Nesting
import Reckon.Proofs.Reader.Quotation
import Reckon.Proofs.Reader.Balance
import Reckon.Proofs.Session.Unknown
import Reckon.Proofs.Reader.Spacing
import Reckon.Proofs.Grammar.Spacing
import Reckon.Proofs.Plot.Picture
import Reckon.Proofs.Number.Value
import Reckon.Proofs.Number.Rounding
import Reckon.Proofs.Number.Operations
import Reckon.Proofs.Plot.Samples
import Reckon.Proofs.Number.Scientific
import Reckon.Proofs.Number.Error
import Reckon.Proofs.Number.Logarithm
import Reckon.Proofs.Plot.Labels
import Reckon.Proofs.Plot.Width
import Reckon.Proofs.Plot.Marks
import Reckon.Proofs.Plot.Order
import Reckon.Proofs.Plot.Crossing
import Reckon.Proofs.Plot.Moves
import Reckon.Proofs.Plot.Projection
import Reckon.Proofs.Description
import Reckon.Proofs.Token.Partition
import Reckon.Proofs.Parenthesis
import Reckon.Proofs.Shell
import Reckon.Proofs.Shell.Dialogue
