import TinyLisp.Decimal.Nearest
import TinyLisp.Decimal.Shortest
import TinyLisp.Decimal.Positional
import TinyLisp.Numeral.Reader
import TinyLisp.Numeral.Printer
import TinyLisp.Text.Blank
import TinyLisp.Text.Printable
import TinyLisp.Text.Combining
import TinyLisp.Text.Quoted
import TinyLisp.Text.Inspected
import TinyLisp.Value.Basic
import TinyLisp.Value.Printer
import TinyLisp.Value.Inspection
import TinyLisp.Token
import TinyLisp.ReadError
import TinyLisp.Value.Reader
import TinyLisp.Bindings
import TinyLisp.Builtin
import TinyLisp.EvalError
import TinyLisp.Scope
import TinyLisp.Evaluation
import TinyLisp.Program
import TinyLisp.Console
import TinyLisp.Main
import TinyLisp.Proofs.Binary64
import TinyLisp.Proofs.Decimal.Rounding
import TinyLisp.Proofs.Decimal.Overflow
import TinyLisp.Proofs.Numeral.RoundTrip
import TinyLisp.Proofs.Text.Literals
import TinyLisp.Proofs.Value.Nodes
import TinyLisp.Proofs.Value.Datum
import TinyLisp.Proofs.Value.Grammar
import TinyLisp.Proofs.Numeral.Grammar
import TinyLisp.Proofs.Numeral.Signs
import TinyLisp.Proofs.Value.Faults
import TinyLisp.Proofs.Token.Scanning
import TinyLisp.Proofs.Token.Layout
import TinyLisp.Proofs.Token.Conservation
import TinyLisp.Proofs.Value.Reading
import TinyLisp.Proofs.Token.Contract
import TinyLisp.Proofs.Value.RoundTrip
import TinyLisp.Proofs.Scope.Overlay
import TinyLisp.Proofs.Scope.Forest
import TinyLisp.Proofs.Scope.Listing
import TinyLisp.Proofs.Evaluation.Effects
import TinyLisp.Proofs.Evaluation.Footprint
import TinyLisp.Proofs.Evaluation.Congruence
import TinyLisp.Proofs.Evaluation.DepthLimit
import TinyLisp.Proofs.Evaluation.Calls
import TinyLisp.Proofs.Evaluation.DepthCounter
import TinyLisp.Proofs.Arithmetic.Trees
import TinyLisp.Proofs.Arithmetic.Exact
import TinyLisp.Proofs.Arithmetic.Regrouping
import TinyLisp.Proofs.Evaluation.Collapse
import TinyLisp.Proofs.Evaluation.Simulation
import TinyLisp.Proofs.Evaluation.Interference
import TinyLisp.Proofs.Evaluation.Discipline
import TinyLisp.Proofs.Session.Run
import TinyLisp.Proofs.Evaluation.NormalForms
import TinyLisp.Proofs.Evaluation.LiteralCalls
import TinyLisp.Proofs.Session.DataModel
import TinyLisp.Proofs.Session.WrittenFunctions
import TinyLisp.Proofs.Evaluation.Forcing
import TinyLisp.Proofs.Session.Splitting
import TinyLisp.Proofs.Session.FunctionFree
import TinyLisp.Proofs.Text.Escapes
import TinyLisp.Proofs.Text.OneLine
import TinyLisp.Proofs.Session.OneLine
import TinyLisp.Proofs.Console.Framing
import TinyLisp.Proofs.Decimal.Overflow
