import LineLang.Text.Runs
import LineLang.Text.Space
import LineLang.Text.Lines
import LineLang.Text.Alphabetic
import LineLang.Text.Bytes
import LineLang.Text.Cluster.Class
import LineLang.Text.Cluster
import LineLang.Text.Backspace
import LineLang.Numeral
import LineLang.Token
import LineLang.Token.Scan
import LineLang.Expr
import LineLang.Expr.Render
import LineLang.Parse.Error
import LineLang.Parse.State
import LineLang.Parse
import LineLang.Frame
import LineLang.Value
import LineLang.Session
import LineLang.Eval
import LineLang.Line
import LineLang.Prelude
import LineLang.Script
import LineLang.Shell
import LineLang.Program
import LineLang.Main
import LineLang.Proofs.Contract
import LineLang.Proofs.Evaluation
import LineLang.Proofs.BigStep
import LineLang.Proofs.BigStep.Refinement
import LineLang.Proofs.Parse.Grammar
import LineLang.Proofs.Parse.Steps
import LineLang.Proofs.Parse.Completeness
import LineLang.Proofs.Parse.Soundness
import LineLang.Proofs.Parse.Correctness
import LineLang.Proofs.Parse.Spelling
import LineLang.Proofs.Scan
import LineLang.Proofs.Text.Offsets
import LineLang.Proofs.Scan.Coverage
import LineLang.Proofs.Scan.Composition
import LineLang.Proofs.RoundTrip.Tokens
import LineLang.Proofs.RoundTrip.Calls
import LineLang.Proofs.RoundTrip.Derivation
import LineLang.Proofs.RoundTrip
import LineLang.Proofs.Effect
import LineLang.Proofs.Scoping
import LineLang.Proofs.Parse.Viable
import LineLang.Proofs.Termination
import LineLang.Proofs.Currying
import LineLang.Proofs.Limit
import LineLang.Proofs.Text.Lines
import LineLang.Proofs.Script
import LineLang.Proofs.Prelude
import LineLang.Proofs.Modes
import LineLang.Proofs.Layout
import LineLang.Proofs.Parse.Descent
import LineLang.Proofs.Parse.Descent.Progress
import LineLang.Proofs.Parse.Descent.Agreement
import LineLang.Proofs.Independence
import LineLang.Proofs.Prelude.Fibonacci
import LineLang.Proofs.Prelude.Random
import LineLang.Proofs.RoundTrip.Unambiguous
import LineLang.Proofs.Arithmetic
import LineLang.Proofs.Arithmetic.Lines
import LineLang.Proofs.Scan.Strays
import LineLang.Proofs.Enclosure
import LineLang.Proofs.Numeral
import LineLang.Proofs.Text.Order
import LineLang.Proofs.Frame
import LineLang.Proofs.Bindings
