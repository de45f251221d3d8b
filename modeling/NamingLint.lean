import NamingLint.Analysis
import NamingLint.Binding
import NamingLint.Check
import NamingLint.Command.Arguments
import NamingLint.Command.Check
import NamingLint.Command.Complaint
import NamingLint.Command.Environment
import NamingLint.Command.Init
import NamingLint.Command.ListRules
import NamingLint.Command.Lookup
import NamingLint.Command.Run
import NamingLint.Data
import NamingLint.Data.Json
import NamingLint.Declarations
import NamingLint.Decoding
import NamingLint.Diagnostic
import NamingLint.DiagnosticStore
import NamingLint.Dialect
import NamingLint.Document
import NamingLint.Encoding
import NamingLint.Event
import NamingLint.Exclusion
import NamingLint.FileTree
import NamingLint.Findings
import NamingLint.Glob
import NamingLint.Ignore.Pattern
import NamingLint.Ignore.Rule
import NamingLint.Locale
import NamingLint.Main
import NamingLint.OutlineGrammar
import NamingLint.Path
import NamingLint.Proofs.Analysis.ExcludedFiles
import NamingLint.Proofs.Analysis.Languages
import NamingLint.Proofs.Analysis.PerFile
import NamingLint.Proofs.Analysis.Presentation
import NamingLint.Proofs.Analysis.RelativePaths
import NamingLint.Proofs.Check.Bounds
import NamingLint.Proofs.Check.Categories
import NamingLint.Proofs.Check.Coordinates
import NamingLint.Proofs.Check.DocumentOrder
import NamingLint.Proofs.Check.LineNumbers
import NamingLint.Proofs.Check.Prefixes
import NamingLint.Proofs.Check.Renaming
import NamingLint.Proofs.Check.SyntaxErrors
import NamingLint.Proofs.Command.ExitStatus
import NamingLint.Proofs.Command.UnknownRules
import NamingLint.Proofs.Declarations.BarredRegions
import NamingLint.Proofs.Declarations.NameNodes
import NamingLint.Proofs.Declarations.Relation
import NamingLint.Proofs.Declarations.Sites
import NamingLint.Proofs.Events
import NamingLint.Proofs.OrderedStore
import NamingLint.Proofs.Path
import NamingLint.Proofs.PathBelow
import NamingLint.Proofs.Report.CompactLines
import NamingLint.Proofs.Report.Excerpts
import NamingLint.Proofs.Report.Totals
import NamingLint.Proofs.RoundTrip
import NamingLint.Proofs.RuleLanguage
import NamingLint.Proofs.SessionHistory
import NamingLint.Proofs.SessionOrder
import NamingLint.Proofs.Store
import NamingLint.Proofs.StoreHistory
import NamingLint.Proofs.Syntax.Address
import NamingLint.Proofs.Syntax.Faults
import NamingLint.Proofs.Syntax.Geometry
import NamingLint.Proofs.Syntax.Reach
import NamingLint.Proofs.Syntax.Shift
import NamingLint.Proofs.Text.LineBreaks
import NamingLint.Proofs.Text.LineSearch
import NamingLint.Proofs.Text.OneLine
import NamingLint.Proofs.Text.Positions
import NamingLint.Proofs.Text.Prefixes
import NamingLint.Proofs.Text.Replacement
import NamingLint.Proofs.Text.Rows
import NamingLint.Proofs.Text.Slices
import NamingLint.Proofs.Walk
import NamingLint.Report.Boxed
import NamingLint.Report.Compact
import NamingLint.Report.Format
import NamingLint.Report.Summary
import NamingLint.Report.Text
import NamingLint.Rule
import NamingLint.Session
import NamingLint.Settings
import NamingLint.SettingsFile
import NamingLint.Severity
import NamingLint.Syntax.Category
import NamingLint.Syntax.Fault
import NamingLint.Syntax.Outline
import NamingLint.Syntax.Tree
import NamingLint.Text.Bytes
import NamingLint.Text.Fill
import NamingLint.Text.LineTable
import NamingLint.Text.Lines
import NamingLint.Text.Position
import NamingLint.Text.Quoted
import NamingLint.Text.Unprintable
import NamingLint.Text.Width
import NamingLint.Toml.Document
import NamingLint.Toml.Moment
import NamingLint.Toml.Number
import NamingLint.Toml.Quoted
import NamingLint.Toml.Reader
import NamingLint.Toml.Table
import NamingLint.Violation
import NamingLint.Walk
