import TemplateAudit.Config.File
import TemplateAudit.Config.Rules
import TemplateAudit.Config.Settings
import TemplateAudit.Css.Quoted
import TemplateAudit.Css.Reader
import TemplateAudit.Css.Selector
import TemplateAudit.Decimal.Double
import TemplateAudit.Decimal.Numeral
import TemplateAudit.Decimal.Places
import TemplateAudit.Decimal.Shortest
import TemplateAudit.Disk.Basic
import TemplateAudit.Disk.Change
import TemplateAudit.Disk.Time
import TemplateAudit.Finding
import TemplateAudit.Finding.Reader
import TemplateAudit.Finding.Summary
import TemplateAudit.Helper.Arguments
import TemplateAudit.Helper.Attributes
import TemplateAudit.Helper.Call
import TemplateAudit.Helper.Catalogue
import TemplateAudit.Helper.Printer
import TemplateAudit.Helper.Value
import TemplateAudit.Html.Document
import TemplateAudit.Html.Event
import TemplateAudit.Html.Reference
import TemplateAudit.Json.Basic
import TemplateAudit.Json.Reader
import TemplateAudit.Json.Shown
import TemplateAudit.Json.Writer
import TemplateAudit.Locate.Line
import TemplateAudit.Locate.Value
import TemplateAudit.Log.Directive
import TemplateAudit.Log.Journal
import TemplateAudit.Log.Level
import TemplateAudit.Log.Message
import TemplateAudit.Markup.Attributes
import TemplateAudit.Markup.Context
import TemplateAudit.Markup.Escape
import TemplateAudit.Markup.Piece
import TemplateAudit.Markup.Spacing
import TemplateAudit.Page.Composition
import TemplateAudit.Page.Scan
import TemplateAudit.Page.Views
import TemplateAudit.Pairs
import TemplateAudit.Path
import TemplateAudit.Proofs.Config.Loaded
import TemplateAudit.Proofs.Css.Quoted
import TemplateAudit.Proofs.Decimal.Canonical
import TemplateAudit.Proofs.Decimal.Digits
import TemplateAudit.Proofs.Decimal.Finite
import TemplateAudit.Proofs.Decimal.Rounding
import TemplateAudit.Proofs.Decimal.Shortest
import TemplateAudit.Proofs.Disk.Change
import TemplateAudit.Proofs.Disk.Directories
import TemplateAudit.Proofs.Disk.Edited
import TemplateAudit.Proofs.Disk.Made
import TemplateAudit.Proofs.Disk.Proper
import TemplateAudit.Proofs.Disk.Removed
import TemplateAudit.Proofs.Disk.Resolved
import TemplateAudit.Proofs.Helper.Attributes
import TemplateAudit.Proofs.Helper.Calls
import TemplateAudit.Proofs.Helper.Closed
import TemplateAudit.Proofs.Helper.Fields
import TemplateAudit.Proofs.Helper.Forms
import TemplateAudit.Proofs.Helper.Keys
import TemplateAudit.Proofs.Helper.Literals
import TemplateAudit.Proofs.Helper.Markup
import TemplateAudit.Proofs.Helper.Pieces
import TemplateAudit.Proofs.Helper.Rendered
import TemplateAudit.Proofs.Helper.Strings
import TemplateAudit.Proofs.Html.Element
import TemplateAudit.Proofs.Html.Escaped
import TemplateAudit.Proofs.Html.Refused
import TemplateAudit.Proofs.Json.Distinct
import TemplateAudit.Proofs.Json.Fields
import TemplateAudit.Proofs.Json.LongInteger
import TemplateAudit.Proofs.Json.Numbers
import TemplateAudit.Proofs.Json.Strings
import TemplateAudit.Proofs.Locate.Counted
import TemplateAudit.Proofs.Locate.Ids
import TemplateAudit.Proofs.Locate.Interpolated
import TemplateAudit.Proofs.Locate.Rows
import TemplateAudit.Proofs.Locate.Signs
import TemplateAudit.Proofs.Locate.Spread
import TemplateAudit.Proofs.Locate.Written
import TemplateAudit.Proofs.Markup.Attributes
import TemplateAudit.Proofs.Markup.Context
import TemplateAudit.Proofs.Markup.Escaped
import TemplateAudit.Proofs.Markup.RawText
import TemplateAudit.Proofs.Markup.Spacing
import TemplateAudit.Proofs.Markup.Tidied
import TemplateAudit.Proofs.Markup.Zones
import TemplateAudit.Proofs.Outcome
import TemplateAudit.Proofs.Page.Closure
import TemplateAudit.Proofs.Page.Depth
import TemplateAudit.Proofs.Page.Entry
import TemplateAudit.Proofs.Page.Files
import TemplateAudit.Proofs.Page.Headings
import TemplateAudit.Proofs.Page.Ids
import TemplateAudit.Proofs.Page.InDepth
import TemplateAudit.Proofs.Page.Names
import TemplateAudit.Proofs.Page.Opened
import TemplateAudit.Proofs.Page.Partials
import TemplateAudit.Proofs.Page.Walk
import TemplateAudit.Proofs.Pairs
import TemplateAudit.Proofs.Path
import TemplateAudit.Proofs.Rule.Counted
import TemplateAudit.Proofs.Rule.Examiner
import TemplateAudit.Proofs.Rule.FieldLabels
import TemplateAudit.Proofs.Rule.LabelTarget
import TemplateAudit.Proofs.Rule.Outline
import TemplateAudit.Proofs.Rule.Unlabelled
import TemplateAudit.Proofs.Scan.Changed
import TemplateAudit.Proofs.Scan.Failures
import TemplateAudit.Proofs.Scan.Interleaved
import TemplateAudit.Proofs.Scan.Keys
import TemplateAudit.Proofs.Scan.Loaded
import TemplateAudit.Proofs.Scan.Memory
import TemplateAudit.Proofs.Scan.Ordered
import TemplateAudit.Proofs.Scan.Page
import TemplateAudit.Proofs.Scan.Record
import TemplateAudit.Proofs.Scan.Repeats
import TemplateAudit.Proofs.Scan.Run
import TemplateAudit.Proofs.Scan.Saving
import TemplateAudit.Proofs.Scan.Steps
import TemplateAudit.Proofs.Scan.Stored
import TemplateAudit.Proofs.Scan.Success
import TemplateAudit.Proofs.Scan.Unsaved
import TemplateAudit.Proofs.Scan.Watch
import TemplateAudit.Proofs.Shape
import TemplateAudit.Proofs.Template.Blocks
import TemplateAudit.Proofs.Template.Models
import TemplateAudit.Proofs.Template.Nested
import TemplateAudit.Proofs.Template.Outputs
import TemplateAudit.Proofs.Template.Placeholder
import TemplateAudit.Proofs.Template.Printed
import TemplateAudit.Proofs.Template.References
import TemplateAudit.Proofs.Template.Render
import TemplateAudit.Proofs.Template.Segments
import TemplateAudit.Proofs.Text.Case
import TemplateAudit.Proofs.Text.Inflection
import TemplateAudit.Proofs.Text.Letter
import TemplateAudit.Proofs.Text.Parts
import TemplateAudit.Proofs.Text.Search
import TemplateAudit.Proofs.Text.Trim
import TemplateAudit.Rule.AriaLandmarks
import TemplateAudit.Rule.Basic
import TemplateAudit.Rule.ColorContrast
import TemplateAudit.Rule.Dialogs
import TemplateAudit.Rule.DuplicateIds
import TemplateAudit.Rule.Examination
import TemplateAudit.Rule.Examiner
import TemplateAudit.Rule.FormErrors
import TemplateAudit.Rule.FormLabels
import TemplateAudit.Rule.Headings
import TemplateAudit.Rule.Images
import TemplateAudit.Rule.Interactive
import TemplateAudit.Rule.LabelTarget
import TemplateAudit.Rule.Registry
import TemplateAudit.Rule.SkipLinks
import TemplateAudit.Rule.Tables
import TemplateAudit.Scan.Audit
import TemplateAudit.Scan.Cache
import TemplateAudit.Scan.Record
import TemplateAudit.Shape
import TemplateAudit.Template.Markup
import TemplateAudit.Template.Printer
import TemplateAudit.Template.Reference
import TemplateAudit.Template.Token
import TemplateAudit.Text.Basic
import TemplateAudit.Text.Blank
import TemplateAudit.Text.Case
import TemplateAudit.Text.Glob
import TemplateAudit.Text.Inflection
import TemplateAudit.Text.Letter
import TemplateAudit.Text.Replace
import TemplateAudit.Text.Shown
import TemplateAudit.Text.Stored
