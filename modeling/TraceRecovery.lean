import TraceRecovery.Text.Letter
import TraceRecovery.Text.Blank
import TraceRecovery.Text.Pieces
import TraceRecovery.Name.Words
import TraceRecovery.Name.Overlap
import TraceRecovery.Name.Preprocessing
import TraceRecovery.Decimal.Layout
import TraceRecovery.Decimal.Reader
import TraceRecovery.Json.Basic
import TraceRecovery.Json.Escape
import TraceRecovery.Json.Printer
import TraceRecovery.Json.Parser
import TraceRecovery.Json.Record
import TraceRecovery.Aggregation
import TraceRecovery.Model.Code
import TraceRecovery.Model.Document
import TraceRecovery.Model.Index
import TraceRecovery.Candidate.Places
import TraceRecovery.Result.Board
import TraceRecovery.Result.IndexedTable
import TraceRecovery.SortedSet
import TraceRecovery.Heuristic.Names
import TraceRecovery.Heuristic.Paths
import TraceRecovery.Heuristic.Companions
import TraceRecovery.Heuristic.Inheritance
import TraceRecovery.Tree.Draft
import TraceRecovery.Tree.Cancellation
import TraceRecovery.Tree.Workload
import TraceRecovery.Tree.Description
import TraceRecovery.Tree.Graph
import TraceRecovery.Tree.Standard
import TraceRecovery.Link.Report
import TraceRecovery.Link.GoldStandard
import TraceRecovery.Aggregation.Document
import TraceRecovery.Yaml.Node
import TraceRecovery.Yaml.Cursor
import TraceRecovery.Yaml.Scalar
import TraceRecovery.Yaml.Property
import TraceRecovery.Yaml.Document
import TraceRecovery.Settings.Document
import TraceRecovery.Command.Arguments
import TraceRecovery.Command.Session
import TraceRecovery.Main
import TraceRecovery.Proofs.Tree.Refinement
import TraceRecovery.Proofs.Tree.Bookkeeping
import TraceRecovery.Proofs.Tree.Interleaving
import TraceRecovery.Proofs.Standard.ClosedForm
import TraceRecovery.Proofs.Standard.Reordering
import TraceRecovery.Proofs.Standard.Totality
import TraceRecovery.Proofs.Tree.Extension
import TraceRecovery.Proofs.Heuristic.Propagation
import TraceRecovery.Proofs.Link.Coverage
import TraceRecovery.Proofs.Link.Raising
import TraceRecovery.Proofs.Link.Enrollment
import TraceRecovery.Proofs.Link.Counting
import TraceRecovery.Proofs.Link.Pooling
import TraceRecovery.Proofs.Link.ExactScores
import TraceRecovery.Proofs.Settings.Layers
import TraceRecovery.Proofs.Result.Indexing
import TraceRecovery.Proofs.Model.RoundTrip
import TraceRecovery.Proofs.Name.Segmentation
import TraceRecovery.Proofs.Text.Letters
import TraceRecovery.Proofs.Name.Spelling
import TraceRecovery.Proofs.Double.Nearest
import TraceRecovery.Proofs.Double.Value
import TraceRecovery.Proofs.Double.Arithmetic
import TraceRecovery.Proofs.Double.Closeness
import TraceRecovery.Proofs.Double.Sum
import TraceRecovery.Proofs.Confidence.Children
import TraceRecovery.Proofs.Confidence.Between
import TraceRecovery.Proofs.Double.Quotient
import TraceRecovery.Proofs.Heuristic.Directories
import TraceRecovery.Proofs.Heuristic.Resemblance
import TraceRecovery.Proofs.Heuristic.Suffixes
import TraceRecovery.Proofs.Link.Averages
import TraceRecovery.Proofs.Result.Publishing
import TraceRecovery.Proofs.Link.Tables
import TraceRecovery.Proofs.Settings.Overrides
import TraceRecovery.Proofs.Settings.Pairs
import TraceRecovery.Proofs.Model.Lookup
import TraceRecovery.Proofs.Candidate.Enumeration
import TraceRecovery.Proofs.Tree.Tokens
import TraceRecovery.Proofs.Tree.Cancelling
import TraceRecovery.Proofs.Result.Sealing
import TraceRecovery.Proofs.Tree.Numbering
import TraceRecovery.Proofs.Tree.Neighbors
import TraceRecovery.Proofs.Tree.Indexed
import TraceRecovery.Proofs.Confidence.Sorting
