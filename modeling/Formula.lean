import Formula.Binding
import Formula.Main
import Formula.Log.Collector
import Formula.Matrix.Select
import Formula.Scalar.Document
import Formula.Proofs.Matrix.Column
import Formula.Proofs.Matrix.Compressed
import Formula.Proofs.Matrix.Write
import Formula.Proofs.Matrix.Build
import Formula.Proofs.Matrix.Transpose
import Formula.Proofs.Binary64
import Formula.Proofs.Matrix.Edits
import Formula.Proofs.Matrix.Agreement
import Formula.Proofs.Matrix.Simulation
import Formula.Proofs.Compile
import Formula.Proofs.Eval.Observed
import Formula.Proofs.Eval.Depth
import Formula.Proofs.Eval.Confined
import Formula.Proofs.Eval.Written
import Formula.Proofs.Node.Source
import Formula.Proofs.Node.Tex
import Formula.Proofs.Node.Reader
import Formula.Proofs.Node.Text
import Formula.Proofs.Node.Calculation
import Formula.Proofs.Node.Sign
import Formula.Proofs.Node.Rebuild
import Formula.Proofs.Node.Validity
import Formula.Proofs.Binary64.Whole
import Formula.Proofs.Standard.Blind
import Formula.Proofs.Eval.Comparison
import Formula.Proofs.Eval.Range
import Formula.Proofs.Eval.Limits
import Formula.Proofs.Eval.Kept
import Formula.Proofs.Eval.Moment
import Formula.Proofs.Session.Act
import Formula.Proofs.Value.Identical
import Formula.Proofs.Session.Limits
import Formula.Proofs.Session.Assigned
import Formula.Proofs.Eval.Locality
import Formula.Proofs.Matrix.Expand
import Formula.Proofs.Matrix.Holds
import Formula.Proofs.Matrix.Datatype
import Formula.Proofs.Matrix.Change
import Formula.Proofs.Node.Rearrange
import Formula.Proofs.Binding
import Formula.Proofs.Decimal.Natural
import Formula.Proofs.Format.Json.Pretty
import Formula.Proofs.Format.Settings
import Formula.Proofs.Format.Toml
import Formula.Proofs.Format.Yaml.Line
import Formula.Proofs.Format.Yaml.Block
import Formula.Proofs.Config.File
import Formula.Proofs.Command.Configuration
import Formula.Proofs.Matrix.Place
import Formula.Proofs.Matrix.Dense
import Formula.Proofs.Matrix.Element
import Formula.Proofs.Matrix.Conversion
import Formula.Proofs.Matrix.Exchange
import Formula.Proofs.Matrix.Extent
import Formula.Proofs.Matrix.Assignment
import Formula.Proofs.Matrix.Selection
import Formula.Proofs.Matrix.Rectangular
import Formula.Proofs.Matrix.Room
import Formula.Proofs.Eval.Growth
import Formula.Proofs.Eval.Update
import Formula.Proofs.Value.Stack
import Formula.Proofs.Node.Address
import Formula.Proofs.Node.Children
import Formula.Proofs.Node.Walk
import Formula.Proofs.Node.Transform
import Formula.Proofs.Binary64.Exchange
import Formula.Proofs.Matrix.Conjugate
import Formula.Proofs.Matrix.Product
import Formula.Proofs.Standard.Relation
import Formula.Proofs.Standard.Elementwise
import Formula.Proofs.Binary64.Parts
import Formula.Proofs.Matrix.Count
import Formula.Proofs.Matrix.Bounds
import Formula.Proofs.Binary64.Nearest
import Formula.Proofs.Decimal.Shortest
import Formula.Proofs.Decimal.ReadBack
import Formula.Proofs.Standard.ComplexText
import Formula.Proofs.Matrix.Odometer
import Formula.Proofs.Matrix.Checked
import Formula.Proofs.Matrix.Overflow
import Formula.Proofs.Matrix.Involution
import Formula.Proofs.Matrix.Answered
import Formula.Proofs.Standard.Answered
import Formula.Proofs.Eval.Answered
