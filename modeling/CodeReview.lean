import CodeReview.Main
import CodeReview.Value.Json.Reader
import CodeReview.Log.Template
import CodeReview.Proofs.Run.Cancelled
import CodeReview.Proofs.Run.Observed
import CodeReview.Proofs.Run.Identifiers
import CodeReview.Proofs.Run.Shapes
import CodeReview.Proofs.Run.Toggled
import CodeReview.Proofs.Grammar.History
import CodeReview.Proofs.Run.History
import CodeReview.Proofs.Analyzer.Attributed
import CodeReview.Proofs.Run.Attributed
import CodeReview.Proofs.Files.Listing
import CodeReview.Proofs.Run.Pruned
import CodeReview.Proofs.Report.Order
import CodeReview.Proofs.Run.Reordered
import CodeReview.Proofs.Grammar.Fallback
import CodeReview.Proofs.Grammar.Located
import CodeReview.Proofs.Run.Inside
import CodeReview.Proofs.Run.Trace
import CodeReview.Proofs.Run.Released
import CodeReview.Proofs.Rule.Reading
import CodeReview.Proofs.Rule.LastSetting
import CodeReview.Proofs.Run.Floor
import CodeReview.Proofs.Files.Alike
import CodeReview.Proofs.Command.Actions
import CodeReview.Proofs.Command.ExitCode
import CodeReview.Proofs.Settings.Checked
import CodeReview.Proofs.Grammar.Foretold
import CodeReview.Proofs.Sink.Findings
import CodeReview.Proofs.Run.Isolated
import CodeReview.Proofs.Grammar.Conditions
import CodeReview.Proofs.Run.Complexity
import CodeReview.Proofs.Run.Conditions
import CodeReview.Proofs.Analyzer.NestedLoops
import CodeReview.Proofs.Analyzer.Composed
import CodeReview.Proofs.Grammar.FirstError
import CodeReview.Proofs.Settings.Substitution
import CodeReview.Proofs.Path.Components
import CodeReview.Proofs.Result.Score
import CodeReview.Proofs.Report.Groups
import CodeReview.Proofs.Report.Times
import CodeReview.Proofs.Syntax.Traversal
import CodeReview.Proofs.Sink.Progress
import CodeReview.Proofs.Report.HotSpots
