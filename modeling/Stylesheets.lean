import Stylesheets.Asset.Attributes
import Stylesheets.Asset.Catalog
import Stylesheets.Asset.Processor
import Stylesheets.Charset
import Stylesheets.CommandLine.Arguments
import Stylesheets.CommandLine.Command
import Stylesheets.CommandLine.Report
import Stylesheets.Decimal.Shortest
import Stylesheets.Fault
import Stylesheets.FileTree.Basic
import Stylesheets.FileTree.Query
import Stylesheets.FileTree.RealPath
import Stylesheets.FileTree.Snapshot
import Stylesheets.FileTree.Walk
import Stylesheets.Ignore.Language
import Stylesheets.Ignore.Matcher
import Stylesheets.Ignore.Pattern
import Stylesheets.Ignore.Spec
import Stylesheets.Import.Candidate
import Stylesheets.Import.Content
import Stylesheets.Import.Dialect
import Stylesheets.Import.Expansion
import Stylesheets.Import.Glob
import Stylesheets.Import.Importer
import Stylesheets.Import.Search
import Stylesheets.Import.Session
import Stylesheets.Indented.Conversion
import Stylesheets.Indented.Item
import Stylesheets.Indented.Line
import Stylesheets.Indented.Output
import Stylesheets.Indented.Statement
import Stylesheets.Libraries.Basic
import Stylesheets.Libraries.Standard
import Stylesheets.Log.Level
import Stylesheets.Main
import Stylesheets.Path.Basic
import Stylesheets.Path.Normal
import Stylesheets.Path.Root
import Stylesheets.Path.Spelling
import Stylesheets.Proofs.CommandLine.JsonReport
import Stylesheets.Proofs.CommandLine.Overriding
import Stylesheets.Proofs.FileTree.Entries
import Stylesheets.Proofs.FileTree.LinkFree
import Stylesheets.Proofs.FileTree.Links
import Stylesheets.Proofs.FileTree.RealPath
import Stylesheets.Proofs.FileTree.Resolution
import Stylesheets.Proofs.FileTree.Walk
import Stylesheets.Proofs.Import.Beside
import Stylesheets.Proofs.Import.Breaches
import Stylesheets.Proofs.Import.Containment
import Stylesheets.Proofs.Import.Dependencies
import Stylesheets.Proofs.Import.Exclusion
import Stylesheets.Proofs.Import.ExclusionRoot
import Stylesheets.Proofs.Import.Expansion
import Stylesheets.Proofs.Import.Fallback
import Stylesheets.Proofs.Import.GlobGrammar
import Stylesheets.Proofs.Import.Misses
import Stylesheets.Proofs.Import.OneForm
import Stylesheets.Proofs.Import.Position
import Stylesheets.Proofs.Import.Probes
import Stylesheets.Proofs.Import.RecordedPaths
import Stylesheets.Proofs.Import.RelativeParent
import Stylesheets.Proofs.Import.Search
import Stylesheets.Proofs.Import.Stages
import Stylesheets.Proofs.Import.TriedPaths
import Stylesheets.Proofs.Indented.Ancestry
import Stylesheets.Proofs.Indented.Braces
import Stylesheets.Proofs.Indented.CommentRemoval
import Stylesheets.Proofs.Indented.Division
import Stylesheets.Proofs.Indented.Nesting
import Stylesheets.Proofs.Indented.OffSide
import Stylesheets.Proofs.Indented.Reindentation
import Stylesheets.Proofs.Indented.Replacement
import Stylesheets.Proofs.Indented.Scanning
import Stylesheets.Proofs.Indented.Shorthands
import Stylesheets.Proofs.Indented.TrailingComment
import Stylesheets.Proofs.Path.FileName
import Stylesheets.Proofs.Path.Inside
import Stylesheets.Proofs.Path.Normal
import Stylesheets.Proofs.Path.Reduced
import Stylesheets.Proofs.Path.Root
import Stylesheets.Proofs.Path.Spelling
import Stylesheets.Proofs.Path.Ways
import Stylesheets.Proofs.Path.Written
import Stylesheets.Proofs.Settings.Arrangement
import Stylesheets.Proofs.Settings.Building
import Stylesheets.Proofs.Settings.FirstFile
import Stylesheets.Proofs.Settings.FromFiles
import Stylesheets.Proofs.Settings.Loading
import Stylesheets.Proofs.Settings.Precedence
import Stylesheets.Proofs.Settings.Rebuilding
import Stylesheets.Proofs.Settings.Roots
import Stylesheets.Proofs.Text.Balance
import Stylesheets.Proofs.Text.Comments
import Stylesheets.Proofs.Text.Lines
import Stylesheets.Proofs.Text.Order
import Stylesheets.Proofs.Text.Trimming
import Stylesheets.Proofs.Value.Json
import Stylesheets.Proofs.Value.Table
import Stylesheets.Settings.Basic
import Stylesheets.Settings.Build
import Stylesheets.Settings.Load
import Stylesheets.Template.Datum
import Stylesheets.Template.Engine
import Stylesheets.Template.Helper
import Stylesheets.Template.Parser
import Stylesheets.Template.Render
import Stylesheets.Template.Spacing
import Stylesheets.Template.Syntax
import Stylesheets.Text.Basic
import Stylesheets.Text.Blank
import Stylesheets.Text.Bytes
import Stylesheets.Text.Letter
import Stylesheets.Text.Number
import Stylesheets.Text.Printable
import Stylesheets.Text.Quoted
import Stylesheets.Text.Range
import Stylesheets.Toml.Calendar
import Stylesheets.Toml.Document
import Stylesheets.Toml.Parser
import Stylesheets.Value.Basic
import Stylesheets.Value.Display
import Stylesheets.Value.Json
import Stylesheets.Value.Moment
import Stylesheets.Proofs.Indented.BlockComments
