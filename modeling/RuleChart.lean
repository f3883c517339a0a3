import RuleChart.Main
import RuleChart.Tree.Annotate
import RuleChart.Tree.Edit
import RuleChart.Proofs.Decimal.Double
import RuleChart.Proofs.Decimal.Spelling
import RuleChart.Proofs.Decimal.Hundredths
import RuleChart.Proofs.Double.Rounding
import RuleChart.Proofs.Double.Units
import RuleChart.Proofs.Double.Order
import RuleChart.Proofs.Double.Arithmetic
import RuleChart.Proofs.Layout.Width
import RuleChart.Proofs.Label.Congruence
import RuleChart.Proofs.Label.Recency
import RuleChart.Proofs.Rule.Decision
import RuleChart.Proofs.Rule.Course
import RuleChart.Proofs.Tree.Walk
import RuleChart.Proofs.Tree.Captions
import RuleChart.Proofs.Tree.Remarks
import RuleChart.Proofs.Command.Verbose
import RuleChart.Proofs.Flowchart.Connections
import RuleChart.Proofs.Flowchart.Subject
import RuleChart.Proofs.Flowchart.Graph
import RuleChart.Proofs.Flowchart.Escape
import RuleChart.Proofs.Text.Split
import RuleChart.Proofs.Flowchart.Lines
import RuleChart.Proofs.Flowchart.Follow
import RuleChart.Proofs.Label.Cache
import RuleChart.Proofs.Tree.Address
import RuleChart.Proofs.Tree.Visible
import RuleChart.Proofs.Tree.Edit
import RuleChart.Proofs.Rule.Chain
import RuleChart.Proofs.Layout.Span
import RuleChart.Proofs.Layout.Apart
import RuleChart.Proofs.Tree.Chain
import RuleChart.Proofs.Flowchart.Chain
import RuleChart.Proofs.Tree.Drawn
import RuleChart.Proofs.Rule.Path
import RuleChart.Proofs.Tree.Paths
import RuleChart.Proofs.Rule.Numbers
import RuleChart.Proofs.Tree.Sharing
import RuleChart.Proofs.Json.Compact
import RuleChart.Proofs.Rule.Json
import RuleChart.Proofs.Rule.RoundTrip
import RuleChart.Proofs.Rule.Limit
import RuleChart.Proofs.Tree.Linkage
import RuleChart.Proofs.Tree.Depth
import RuleChart.Proofs.Tree.Pairs
import RuleChart.Proofs.Layout.Shown
import RuleChart.Proofs.Layout.Transpose
import RuleChart.Proofs.Layout.Canvas
import RuleChart.Proofs.Layout.Tight
import RuleChart.Proofs.Layout.Growth
import RuleChart.Proofs.Tree.Annotation
import RuleChart.Proofs.Layout.Skeleton
import RuleChart.Proofs.Tree.Shape
import RuleChart.Proofs.Tree.Embedding
import RuleChart.Proofs.Flowchart.Lossless
import RuleChart.Proofs.Label.Limit
import RuleChart.Proofs.Label.Forms
import RuleChart.Proofs.Label.Characters
import RuleChart.Proofs.Label.Malformed
import RuleChart.Proofs.Rule.Worklist
import RuleChart.Proofs.Rule.Remarks
import RuleChart.Proofs.Tree.Lookup
import RuleChart.Proofs.Label.Contents
import RuleChart.Proofs.Tree.Outline
import RuleChart.Proofs.Tree.Breaks
import RuleChart.Proofs.Tree.Reference
import RuleChart.Proofs.Flowchart.Arrays
import RuleChart.Proofs.Flowchart.Presentation
