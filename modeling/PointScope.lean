import PointScope.Cloud.Builtin
import PointScope.Expr.Printer
import PointScope.Frame.Histogram
import PointScope.Main
import PointScope.Session.Memory
import PointScope.View.Page
import PointScope.Proofs.Expr.Grammar
import PointScope.Proofs.Expr.Steps
import PointScope.Proofs.Expr.Soundness
import PointScope.Proofs.Expr.Completeness
import PointScope.Proofs.Frame.Pixels
import PointScope.Proofs.Draw.Line
import PointScope.Proofs.Draw.Path
import PointScope.Proofs.Draw.Incremental
import PointScope.Proofs.Expr.Language
import PointScope.Proofs.Draw.Area
import PointScope.Proofs.Frame.Clear
import PointScope.Proofs.Frame.Region
import PointScope.Proofs.Draw.Label
import PointScope.Proofs.Frame.Layout
import PointScope.Proofs.Frame.Access
import PointScope.Proofs.Frame.Length
import PointScope.Proofs.Color.Hex
import PointScope.Proofs.Draw.Access
import PointScope.Proofs.Scene.Painter
import PointScope.Proofs.Scene.Redraw
import PointScope.Proofs.Scene.Access
import PointScope.Proofs.Scene.Readers
import PointScope.Proofs.Scene.Lattice
import PointScope.Proofs.Scene.Hover
import PointScope.Proofs.Decimal.Bits
import PointScope.Proofs.Decimal.Digits
import PointScope.Proofs.Decimal.Nearest
import PointScope.Proofs.Decimal.Shortest
import PointScope.Proofs.Decimal.Fixed
import PointScope.Proofs.Expr.Lexing
import PointScope.Proofs.Expr.Printing
import PointScope.Proofs.Expr.Words
import PointScope.Proofs.Expr.Faults
import PointScope.Proofs.Expr.Scanning
import PointScope.Proofs.Expr.Spacing
import PointScope.Proofs.Expr.Blame
import PointScope.Proofs.Decimal.RoundTrip
import PointScope.Proofs.Decimal.Numeral
import PointScope.Proofs.Cloud.Lines
import PointScope.Proofs.Cloud.Records
import PointScope.Proofs.Cloud.Reading
import PointScope.Proofs.Cloud.RoundTrip
import PointScope.Proofs.Grid.Whole
import PointScope.Proofs.Grid.Sampling
import PointScope.Proofs.Grid.Axis
import PointScope.Proofs.View.Events
import PointScope.Proofs.View.History
import PointScope.Proofs.View.Rendering
import PointScope.Proofs.View.Scale
import PointScope.Proofs.Decimal.Rounding
import PointScope.Proofs.Draw.Words
import PointScope.Proofs.Draw.Coverage
import PointScope.Proofs.Draw.Stroke
import PointScope.Proofs.Draw.Lettering
import PointScope.Proofs.Terminal.Cells
import PointScope.Proofs.Terminal.Means
import PointScope.Proofs.Terminal.Partition
import PointScope.Proofs.Terminal.Reading
import PointScope.Proofs.Single.Error
import PointScope.Proofs.Single.Arithmetic
import PointScope.Proofs.Color.Blend
import PointScope.Proofs.Frame.Overlay
import PointScope.Proofs.Scene.Opacity
import PointScope.Proofs.Cloud.Layout
import PointScope.Proofs.Config.Acceptance
import PointScope.Proofs.Color.Written
import PointScope.Proofs.View.Rigidity
