import CodeReview.Text.Blank
import CodeReview.Text.Digit
import CodeReview.Text.Lines
import CodeReview.Text.Lower
import CodeReview.Text.Quoted
import CodeReview.Text.Utf8
import CodeReview.Text.Word
import CodeReview.Pattern.Search
import CodeReview.Finding
import CodeReview.Block.Complexity
import CodeReview.Block.Scan
import CodeReview.Json.Printer
import CodeReview.Json.Reader
import CodeReview.Log
import CodeReview.Detector.Registry
import CodeReview.Config.Environment
import CodeReview.Report.Basic
import CodeReview.Result.Aggregate
import CodeReview.Result.Check
import CodeReview.Review.Basic
import CodeReview.Repository
import CodeReview.Diff.Printer
import CodeReview.Diff.Reader
import CodeReview.PullRequest.Comment
import CodeReview.PullRequest.Fetch
import CodeReview.CommandLine.Run
import CodeReview.Main
import CodeReview.Proofs.Partition
import CodeReview.Proofs.UnitNames
import CodeReview.Proofs.Nesting
import CodeReview.Proofs.Capture
import CodeReview.Proofs.Rules.Server
import CodeReview.Proofs.Rules.Client
import CodeReview.Proofs.Rules.Schema
import CodeReview.Proofs.Rules.Catalogue
import CodeReview.Proofs.Location
import CodeReview.Proofs.Identity
import CodeReview.Proofs.Frozen
import CodeReview.Proofs.Collecting
import CodeReview.Proofs.Merging
import CodeReview.Proofs.MachineReport
import CodeReview.Proofs.MachineText
import CodeReview.Proofs.Reports
import CodeReview.Proofs.BlockFindings
import CodeReview.Proofs.Isolation
import CodeReview.Proofs.Observations
import CodeReview.Proofs.Retrying
import CodeReview.Proofs.Outcome
import CodeReview.Proofs.Awaiting
import CodeReview.Proofs.Fetching
import CodeReview.Proofs.Posting
import CodeReview.Proofs.Steps
import CodeReview.Proofs.Phases
import CodeReview.Proofs.ExitCodes
import CodeReview.Proofs.NestedBlocks
import CodeReview.Proofs.Scope
import CodeReview.Proofs.Decoding
import CodeReview.Proofs.Skipping
import CodeReview.Proofs.Combining
import CodeReview.Proofs.Reordering
import CodeReview.Proofs.Workers
import CodeReview.Proofs.Settings
import CodeReview.Proofs.Thresholds
import CodeReview.Proofs.DiffRoundTrip
import CodeReview.Proofs.SingleComment
import CodeReview.Proofs.Traces
import CodeReview.Proofs.BlockEnds
import CodeReview.Proofs.Stretches
import CodeReview.Proofs.ScannedUnits
import CodeReview.Proofs.LoopWords
import CodeReview.Proofs.IterationHeads
import CodeReview.Proofs.IterationBodies
import CodeReview.Proofs.EndlessMethods
import CodeReview.Proofs.Folders
import CodeReview.Proofs.Selection
import CodeReview.Proofs.Sections
import CodeReview.Proofs.Notices
import CodeReview.Proofs.FirstMatches
import CodeReview.Proofs.LineCounts
import CodeReview.Proofs.LineNumbers
import CodeReview.Proofs.Tags
import CodeReview.Proofs.DebugLines
import CodeReview.Proofs.Readings
import CodeReview.Proofs.Descriptions
import CodeReview.Proofs.LineEndings
import CodeReview.Proofs.MalformedBytes
import CodeReview.Proofs.SourceFiles
import CodeReview.Proofs.Merits
import CodeReview.Proofs.PraiseAgreement
import CodeReview.Proofs.RepositoryNames
import CodeReview.Proofs.ExactNumbers
import CodeReview.Proofs.Backoff
import CodeReview.Proofs.Columns
