import CosmeticLint.CommandLine.Answer
import CosmeticLint.CommandLine.Reading
import CosmeticLint.FilterList.Artifact
import CosmeticLint.FilterList.Buckets
import CosmeticLint.FilterList.Selector
import CosmeticLint.Generator.Command
import CosmeticLint.Generator.Generate
import CosmeticLint.Json.Decoder
import CosmeticLint.Json.Double
import CosmeticLint.Json.Failure
import CosmeticLint.Json.Pretty
import CosmeticLint.Json.Text
import CosmeticLint.Lint.Check
import CosmeticLint.Lint.Diagnostic
import CosmeticLint.Lint.FileKind
import CosmeticLint.Lint.HiddenNames
import CosmeticLint.Lint.Rule
import CosmeticLint.Main
import CosmeticLint.Markup.Blocks
import CosmeticLint.Markup.Body
import CosmeticLint.Markup.Document
import CosmeticLint.Markup.Problem
import CosmeticLint.Markup.Reference
import CosmeticLint.Markup.StartTag
import CosmeticLint.Markup.Token
import CosmeticLint.Project.Command
import CosmeticLint.Project.Glob
import CosmeticLint.Project.Glob.Match
import CosmeticLint.Project.Options
import CosmeticLint.Project.Run
import CosmeticLint.Project.Settings
import CosmeticLint.Proofs.FilterList.Forbidden
import CosmeticLint.Proofs.FilterList.Kinds
import CosmeticLint.Proofs.FilterList.LineEndings
import CosmeticLint.Proofs.Generator.Replacement
import CosmeticLint.Proofs.Json.ReadBack
import CosmeticLint.Proofs.Json.Values
import CosmeticLint.Proofs.Lint.AttributePlaces
import CosmeticLint.Proofs.Lint.Dispatch
import CosmeticLint.Proofs.Lint.EmbeddedScripts
import CosmeticLint.Proofs.Lint.FewerNames
import CosmeticLint.Proofs.Lint.LostTemplate
import CosmeticLint.Proofs.Lint.Report
import CosmeticLint.Proofs.Lint.Reportable
import CosmeticLint.Proofs.Lint.ScriptPlaces
import CosmeticLint.Proofs.Markup.Attributes
import CosmeticLint.Proofs.Markup.BlockCuts
import CosmeticLint.Proofs.Markup.Bodies
import CosmeticLint.Proofs.Markup.Concatenation
import CosmeticLint.Proofs.Markup.ElementOrder
import CosmeticLint.Proofs.Markup.Faithful
import CosmeticLint.Proofs.Markup.FaithfulComponent
import CosmeticLint.Proofs.Markup.Layout
import CosmeticLint.Proofs.Markup.LetterCase
import CosmeticLint.Proofs.Markup.Lossless
import CosmeticLint.Proofs.Markup.Nesting
import CosmeticLint.Proofs.Markup.NoFault
import CosmeticLint.Proofs.Markup.Nodes
import CosmeticLint.Proofs.Markup.Offsets
import CosmeticLint.Proofs.Markup.OpenElements
import CosmeticLint.Proofs.Markup.RawEnds
import CosmeticLint.Proofs.Markup.References
import CosmeticLint.Proofs.Markup.RoundTrip
import CosmeticLint.Proofs.Markup.Scan
import CosmeticLint.Proofs.Markup.Shift
import CosmeticLint.Proofs.Markup.StartTags
import CosmeticLint.Proofs.Markup.TagEnds
import CosmeticLint.Proofs.Markup.TokenCover
import CosmeticLint.Proofs.Markup.TokenRoles
import CosmeticLint.Proofs.Markup.TokenWalk
import CosmeticLint.Proofs.Markup.Tokens
import CosmeticLint.Proofs.Markup.Written
import CosmeticLint.Proofs.Project.Agreement
import CosmeticLint.Proofs.Report.Caret
import CosmeticLint.Proofs.Report.MachineLines
import CosmeticLint.Proofs.Report.Snippet
import CosmeticLint.Proofs.Script.Collect
import CosmeticLint.Proofs.Script.Grammar
import CosmeticLint.Proofs.Script.Literals
import CosmeticLint.Proofs.Script.Places
import CosmeticLint.Proofs.Script.Quoted
import CosmeticLint.Proofs.Script.Reader
import CosmeticLint.Proofs.Storage.Disk
import CosmeticLint.Proofs.Text.Extension
import CosmeticLint.Proofs.Text.LetterCase
import CosmeticLint.Proofs.Text.Lines
import CosmeticLint.Proofs.Text.Paths
import CosmeticLint.Proofs.Text.Place
import CosmeticLint.Proofs.Text.Search
import CosmeticLint.Proofs.Text.ShownLines
import CosmeticLint.Proofs.Text.Slice
import CosmeticLint.Proofs.Text.Split
import CosmeticLint.Report.Entry
import CosmeticLint.Report.Format
import CosmeticLint.Report.RuleList
import CosmeticLint.Report.Summary
import CosmeticLint.Script.Cause
import CosmeticLint.Script.Collect
import CosmeticLint.Script.Dialect
import CosmeticLint.Script.Element
import CosmeticLint.Script.Escape
import CosmeticLint.Script.Expression
import CosmeticLint.Script.Function
import CosmeticLint.Script.Literal
import CosmeticLint.Script.Parameters
import CosmeticLint.Script.Parser
import CosmeticLint.Script.Reader
import CosmeticLint.Script.Statement
import CosmeticLint.Script.Template
import CosmeticLint.Script.Token
import CosmeticLint.Script.TypeExpr
import CosmeticLint.Storage.Disk
import CosmeticLint.Storage.Files
import CosmeticLint.Text.Alphanumeric
import CosmeticLint.Text.Blank
import CosmeticLint.Text.Cursor
import CosmeticLint.Text.Lines
import CosmeticLint.Text.Path
import CosmeticLint.Text.Printable
import CosmeticLint.Text.Quoted
import CosmeticLint.Text.Ranges
import CosmeticLint.Text.Span
import CosmeticLint.Text.Split
