import Edl.Cli.Command
import Edl.Cli.Lint
import Edl.Cli.Usage
import Edl.Cli.Word
import Edl.Collection
import Edl.Completion
import Edl.Config.Flatten
import Edl.Config.Number
import Edl.Config.Settings
import Edl.Config.Value
import Edl.Diagnostic.Basic
import Edl.Diagnostic.Catalog
import Edl.Diagnostic.Report
import Edl.Document
import Edl.Emitter
import Edl.Fault
import Edl.Files.Name
import Edl.Files.Tree
import Edl.Host.Basic
import Edl.Host.Linter
import Edl.Host.Publish
import Edl.Host.Request
import Edl.Host.Service
import Edl.Hover
import Edl.Json
import Edl.Lint.Rule
import Edl.Lint.RuleList
import Edl.Lint.Scan
import Edl.Lint.Semantic
import Edl.Lint.Style
import Edl.Lint.Syntax
import Edl.Log
import Edl.Main
import Edl.Proofs.Activation
import Edl.Proofs.Announcement
import Edl.Proofs.Atomicity
import Edl.Proofs.Attribution
import Edl.Proofs.Blame
import Edl.Proofs.Chronicle
import Edl.Proofs.Configuration
import Edl.Proofs.Cursor
import Edl.Proofs.Declaration
import Edl.Proofs.Decoding
import Edl.Proofs.Disposal
import Edl.Proofs.Emission
import Edl.Proofs.Encoding
import Edl.Proofs.Feeding
import Edl.Proofs.Findings
import Edl.Proofs.Flattening
import Edl.Proofs.Fringe
import Edl.Proofs.Handles
import Edl.Proofs.History
import Edl.Proofs.HostOperations
import Edl.Proofs.Independence
import Edl.Proofs.JsonGrammar
import Edl.Proofs.JsonReader
import Edl.Proofs.JsonRendering
import Edl.Proofs.JsonReport
import Edl.Proofs.JsonTokens
import Edl.Proofs.Legibility
import Edl.Proofs.Lines
import Edl.Proofs.LintedWorkspace
import Edl.Proofs.Margin
import Edl.Proofs.Mirror
import Edl.Proofs.Operation
import Edl.Proofs.Overlay
import Edl.Proofs.Padding
import Edl.Proofs.Placement
import Edl.Proofs.Provenance
import Edl.Proofs.Reachable
import Edl.Proofs.Reading
import Edl.Proofs.Recency
import Edl.Proofs.Release
import Edl.Proofs.Relocation
import Edl.Proofs.Report
import Edl.Proofs.Rescan
import Edl.Proofs.Search
import Edl.Proofs.SingleService
import Edl.Proofs.Span
import Edl.Proofs.Spelling
import Edl.Proofs.Splitting
import Edl.Proofs.Statement
import Edl.Proofs.Stretch
import Edl.Proofs.Synchronisation
import Edl.Proofs.Table
import Edl.Proofs.Token
import Edl.Proofs.Transition
import Edl.Proofs.Trim
import Edl.Proofs.Undisturbed
import Edl.Proofs.Update
import Edl.Proofs.Verdict
import Edl.Proofs.WellFormed
import Edl.Proofs.Wired
import Edl.Registry
import Edl.Table
import Edl.Text.Blank
import Edl.Text.Digit
import Edl.Text.LineEnd
import Edl.Text.Lines
import Edl.Text.Position
import Edl.Text.Printable
import Edl.Text.Quoted
import Edl.Text.Search
import Edl.Text.Utf8
import Edl.Vocabulary
import Edl.Workspace
