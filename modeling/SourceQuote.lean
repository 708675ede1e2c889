import SourceQuote.ClassId
import SourceQuote.Command.Invocation
import SourceQuote.Command.Options
import SourceQuote.Command.Run
import SourceQuote.Containers.InsertionMap
import SourceQuote.Containers.SortedMap
import SourceQuote.Dialect
import SourceQuote.Digest.Sha256
import SourceQuote.Environment
import SourceQuote.Error
import SourceQuote.FileSystem.Basic
import SourceQuote.Glob.Basic
import SourceQuote.Glob.Height
import SourceQuote.Glob.Matching
import SourceQuote.Glob.Reader
import SourceQuote.Json.Basic
import SourceQuote.Json.Reader
import SourceQuote.Json.Writer
import SourceQuote.Log.Event
import SourceQuote.Log.Expression.CharacterClass
import SourceQuote.Log.Expression.Escape
import SourceQuote.Log.Expression.Mode
import SourceQuote.Log.Expression.Opening
import SourceQuote.Log.Expression.WellFormed
import SourceQuote.Log.Filter
import SourceQuote.Log.Level
import SourceQuote.Log.Line
import SourceQuote.Log.ValuePattern
import SourceQuote.Main
import SourceQuote.Method.Declaration
import SourceQuote.Method.Segmentation
import SourceQuote.Nesting
import SourceQuote.Pass.ClassBody
import SourceQuote.Pass.Edit
import SourceQuote.Pass.Options
import SourceQuote.Pass.Transformed
import SourceQuote.Path.Basic
import SourceQuote.Project.Build
import SourceQuote.Project.Config
import SourceQuote.Project.FileOutcome
import SourceQuote.Project.Report
import SourceQuote.Proofs.Text.Pieces
import SourceQuote.Proofs.Text.Slices
import SourceQuote.Proofs.Tree.WellFormed
import SourceQuote.Quotation
import SourceQuote.Registry
import SourceQuote.Repository.Basic
import SourceQuote.Repository.Registration
import SourceQuote.Scan.IgnoreFiles
import SourceQuote.Scan.Rule
import SourceQuote.Scan.Selection
import SourceQuote.Scan.SourceFiles
import SourceQuote.Scan.UserIgnore
import SourceQuote.Segment
import SourceQuote.Storage.Cache
import SourceQuote.Storage.Codec
import SourceQuote.Storage.Manifest
import SourceQuote.Template.ArrowFunction
import SourceQuote.Template.Basic
import SourceQuote.Text.Alphabetic
import SourceQuote.Text.Alphanumeric
import SourceQuote.Text.Blank
import SourceQuote.Text.CodeRange
import SourceQuote.Text.Identifier
import SourceQuote.Text.Line
import SourceQuote.Text.Natural
import SourceQuote.Text.Quoted
import SourceQuote.Text.Span
import SourceQuote.Text.Unseen
import SourceQuote.Text.Utf8
import SourceQuote.Tree.Basic
import SourceQuote.Tree.Listing
import SourceQuote.Tree.SourceUnit
import SourceQuote.Proofs.Tree.Leaves
import SourceQuote.Proofs.Method.Window
import SourceQuote.Proofs.Method.Segmentation
import SourceQuote.Proofs.FirstFailure
import SourceQuote.Proofs.Template.Rendering
import SourceQuote.Proofs.Method.Substitution
import SourceQuote.Proofs.Template.ArrowFunction
import SourceQuote.Proofs.Pass.Edits
import SourceQuote.Proofs.Pass.Markers
import SourceQuote.Proofs.Pass.Rewriting
import SourceQuote.Proofs.Json.RoundTrip
import SourceQuote.Proofs.Containers.Maps
import SourceQuote.Proofs.Storage.RoundTrip
import SourceQuote.Proofs.Storage.Files
import SourceQuote.Proofs.Repository.Registration
import SourceQuote.Proofs.Project.CacheConsistency
import SourceQuote.Proofs.Project.Incremental
import SourceQuote.Proofs.Project.ModuleAttribution
import SourceQuote.Proofs.Project.Publication
import SourceQuote.Proofs.FileSystem.Directories
import SourceQuote.Proofs.FileSystem.Merging
import SourceQuote.Proofs.Project.Routes
import SourceQuote.Proofs.Project.Scheduling
import SourceQuote.Proofs.Registry.Calls
import SourceQuote.Proofs.Project.Accounting
import SourceQuote.Proofs.Glob.Reach
import SourceQuote.Proofs.Glob.Wildcards
import SourceQuote.Proofs.Scan.Selection
import SourceQuote.Proofs.Scan.Skipping
import SourceQuote.Proofs.Project.Inputs
import SourceQuote.Proofs.FileSystem.Saving
import SourceQuote.Proofs.Scan.Stability
import SourceQuote.Proofs.Project.Rebuilding
import SourceQuote.Proofs.Pass.Extraction
import SourceQuote.Proofs.Command.FrontEnds
import SourceQuote.Proofs.Pass.Erasure
import SourceQuote.Proofs.Method.Body
import SourceQuote.Proofs.Scan.Honouring
import SourceQuote.Proofs.Method.Partition
import SourceQuote.Proofs.Path.ModuleName
import SourceQuote.Proofs.Tree.Faults
