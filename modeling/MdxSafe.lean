import MdxSafe.Text.Blank
import MdxSafe.Binary64.Decimal
import MdxSafe.Text.Case
import MdxSafe.Text.Digit
import MdxSafe.Text.Printable
import MdxSafe.Text.Symbol
import MdxSafe.Value.Number
import MdxSafe.Markdown.Token
import MdxSafe.Tree.Node
import MdxSafe.Tree.Assembly
import MdxSafe.Text.Utf8
import MdxSafe.Url.Percent
import MdxSafe.Url.Punycode
import MdxSafe.Url.Basic
import MdxSafe.Url.Link
import MdxSafe.Markdown.Entity
import MdxSafe.Markdown.Link
import MdxSafe.Markdown.Autolink
import MdxSafe.Markdown.Tag
import MdxSafe.Markdown.Delimiter
import MdxSafe.Markdown.Inline
import MdxSafe.Markdown.Fault
import MdxSafe.Markdown.Fence
import MdxSafe.Markdown.Heading
import MdxSafe.Markdown.HtmlBlock
import MdxSafe.Markdown.Line
import MdxSafe.Markdown.ListMarker
import MdxSafe.Markdown.Table
import MdxSafe.Markdown.Definition
import MdxSafe.Markdown.Block
import MdxSafe.Markdown.Reader
import MdxSafe.Tree.Reader
import MdxSafe.Layout.Block
import MdxSafe.Validation.Numeral
import MdxSafe.Validation.Basic
import MdxSafe.Value.Json
import MdxSafe.Tree.Validation
import MdxSafe.Settings.Basic
import MdxSafe.Settings.Validation
import MdxSafe.Log
import MdxSafe.Rewrite.Comment
import MdxSafe.Rewrite.LinkRoot
import MdxSafe.Rewrite.Pass
import MdxSafe.Scan.Basic
import MdxSafe.Config.Merge
import MdxSafe.Path
import MdxSafe.Site.RepoName
import MdxSafe.Document
import MdxSafe.Document.Manuscript
import MdxSafe.Registry
import MdxSafe.Run.Progress
import MdxSafe.Run.Summary
import MdxSafe.Run.Timer
import MdxSafe.Disk.Access
import MdxSafe.Disk.Discovery
import MdxSafe.Config.Basic
import MdxSafe.Config.Load
import MdxSafe.Run.Basic
import MdxSafe.Run.Process
import MdxSafe.Run.Run
import MdxSafe.Site.Edit
import MdxSafe.Site.Onboarding
import MdxSafe.Report.Address
import MdxSafe.Report.Console
import MdxSafe.Report.Csv
import MdxSafe.Report.Export
import MdxSafe.Command.Options
import MdxSafe.Command.AddRepository
import MdxSafe.Command.Fix
import MdxSafe.Main
import MdxSafe.Proofs.Document.Code
import MdxSafe.Proofs.Document.SingleLine
import MdxSafe.Proofs.Document.Target
import MdxSafe.Proofs.Rewrite.Again
import MdxSafe.Proofs.Rewrite.Changed
import MdxSafe.Proofs.Rewrite.Frame
import MdxSafe.Proofs.Run.Atomic
import MdxSafe.Proofs.Run.Backup
import MdxSafe.Proofs.Run.DryRun
import MdxSafe.Proofs.Rewrite.Repair
import MdxSafe.Proofs.Rewrite.Expression
import MdxSafe.Proofs.Disk.Reach
import MdxSafe.Proofs.Tree.Standing
import MdxSafe.Proofs.Tree.Written
import MdxSafe.Proofs.Site.Again
import MdxSafe.Proofs.Site.Splice
import MdxSafe.Proofs.Site.Registered
import MdxSafe.Proofs.Command.Status
import MdxSafe.Proofs.Command.AddRepository
import MdxSafe.Proofs.Config.Edit
import MdxSafe.Proofs.Config.Load
import MdxSafe.Proofs.Registry.Pipeline
import MdxSafe.Proofs.Layout.Fenced
import MdxSafe.Proofs.Layout.Container
import MdxSafe.Proofs.Layout.CodeSpan
import MdxSafe.Proofs.Layout.Heading
import MdxSafe.Proofs.Layout.Row
import MdxSafe.Proofs.Config.Merge
import MdxSafe.Proofs.Rewrite.Link
import MdxSafe.Proofs.Scan.Expression
import MdxSafe.Proofs.Run.Accounting
