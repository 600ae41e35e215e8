import Curves.CommandLine.Command
import Curves.CommandLine.FileTree
import Curves.CommandLine.Grammar
import Curves.CommandLine.Misuse
import Curves.CommandLine.Run
import Curves.CommandLine.Storage
import Curves.CommandLine.Value
import Curves.Csv.Block
import Curves.Csv.Error
import Curves.Csv.Format
import Curves.Csv.Read
import Curves.Csv.Record
import Curves.Csv.Write
import Curves.Equation
import Curves.Event
import Curves.Expr.Basic
import Curves.Expr.Diagnostic
import Curves.Expr.Function
import Curves.Expr.Parser
import Curves.Expr.Source
import Curves.Formula
import Curves.Main
import Curves.Number.Constant
import Curves.Number.Decimal
import Curves.Number.Integral
import Curves.Number.Length
import Curves.Number.Read
import Curves.Number.Rounding
import Curves.Number.Shortest
import Curves.Number.Single
import Curves.Number.Text
import Curves.Proofs.CommandLine.ClampRange
import Curves.Proofs.CommandLine.Files
import Curves.Proofs.CommandLine.Reading
import Curves.Proofs.Csv.Fields
import Curves.Proofs.Csv.Reading
import Curves.Proofs.Csv.Records
import Curves.Proofs.Csv.RoundTrip
import Curves.Proofs.Expr.Accounting
import Curves.Proofs.Expr.Blanks
import Curves.Proofs.Expr.Closing
import Curves.Proofs.Expr.Completeness
import Curves.Proofs.Expr.Composition
import Curves.Proofs.Expr.Constancy
import Curves.Proofs.Expr.Exactness
import Curves.Proofs.Expr.Execution
import Curves.Proofs.Expr.Fragments
import Curves.Proofs.Expr.Grammar
import Curves.Proofs.Expr.Halting
import Curves.Proofs.Expr.InvalidNumbers
import Curves.Proofs.Expr.Leftover
import Curves.Proofs.Expr.Literal
import Curves.Proofs.Expr.Places
import Curves.Proofs.Expr.Products
import Curves.Proofs.Expr.Reading
import Curves.Proofs.Expr.Rereading
import Curves.Proofs.Expr.Roots
import Curves.Proofs.Expr.Separators
import Curves.Proofs.Expr.Size
import Curves.Proofs.Expr.Soundness
import Curves.Proofs.Expr.Summands
import Curves.Proofs.Expr.Trace
import Curves.Proofs.Expr.Unexpected
import Curves.Proofs.Expr.Writing
import Curves.Proofs.Number.Arithmetic
import Curves.Proofs.Number.Exact
import Curves.Proofs.Number.Infinity
import Curves.Proofs.Number.Integral
import Curves.Proofs.Number.Interpolation
import Curves.Proofs.Number.Nearest
import Curves.Proofs.Number.Order
import Curves.Proofs.Number.ReadBack
import Curves.Proofs.Number.Rounding
import Curves.Proofs.Number.RoundingToEven
import Curves.Proofs.Number.Scientific
import Curves.Proofs.Number.Signs
import Curves.Proofs.Number.Single
import Curves.Proofs.Sampling.Checked
import Curves.Proofs.Sampling.Clamping
import Curves.Proofs.Sampling.Division
import Curves.Proofs.Sampling.Entries
import Curves.Proofs.Sampling.Increasing
import Curves.Proofs.Sampling.Lookup
import Curves.Proofs.Sampling.Multiples
import Curves.Proofs.Sampling.PiGrid
import Curves.Proofs.Sampling.PiLimit
import Curves.Proofs.Sampling.Points
import Curves.Proofs.Sampling.Refinement
import Curves.Proofs.Sampling.Runs
import Curves.Proofs.Sampling.Safety
import Curves.Proofs.Sampling.Segments
import Curves.Proofs.Sampling.UniformGrid
import Curves.Proofs.Sampling.Visits
import Curves.Proofs.Text.Lowercase
import Curves.Proofs.Text.Normalization
import Curves.Proofs.Zone.History
import Curves.Sampling.Basic
import Curves.Sampling.Drawing
import Curves.Sampling.Grid
import Curves.Sampling.LookupTable
import Curves.Sampling.Polyline
import Curves.Sampling.Sample
import Curves.Text.Blank
import Curves.Text.Letter
import Curves.Text.Lowercase
import Curves.Text.Quoted
import Curves.Text.Ranges
import Curves.Text.Utf8
import Curves.Zone
