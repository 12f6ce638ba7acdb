import SchemaDiagram.Canvas.Box
import SchemaDiagram.Canvas.Drag
import SchemaDiagram.Canvas.Fault
import SchemaDiagram.Canvas.Grid
import SchemaDiagram.Command.Location
import SchemaDiagram.Command.Request
import SchemaDiagram.Command.Run
import SchemaDiagram.Command.Terminal
import SchemaDiagram.Command.Transcript
import SchemaDiagram.Config
import SchemaDiagram.Config.Settings
import SchemaDiagram.Connector.Path
import SchemaDiagram.Connector.Route
import SchemaDiagram.Datum
import SchemaDiagram.Datum.Calendar
import SchemaDiagram.Diagram
import SchemaDiagram.Diagram.Export
import SchemaDiagram.Diagram.Positions
import SchemaDiagram.Editor.Session
import SchemaDiagram.Json.Reader
import SchemaDiagram.Json.Token
import SchemaDiagram.Json.Writer
import SchemaDiagram.Log
import SchemaDiagram.Main
import SchemaDiagram.Number.Angle
import SchemaDiagram.Number.Arithmetic
import SchemaDiagram.Number.Binary64
import SchemaDiagram.Number.Decimal
import SchemaDiagram.Number.DigitLimit
import SchemaDiagram.Number.Quantity
import SchemaDiagram.Number.Shortest
import SchemaDiagram.Page.Html
import SchemaDiagram.Page.Markup
import SchemaDiagram.Page.View
import SchemaDiagram.Placement.Allocate
import SchemaDiagram.Placement.Layout
import SchemaDiagram.Placement.Twister
import SchemaDiagram.Registry
import SchemaDiagram.Schema.BracketSettings
import SchemaDiagram.Schema.Cursor
import SchemaDiagram.Schema.Database
import SchemaDiagram.Schema.Document
import SchemaDiagram.Schema.Entity
import SchemaDiagram.Schema.Fault
import SchemaDiagram.Schema.FieldLine
import SchemaDiagram.Schema.ReferenceLine
import SchemaDiagram.Schema.TableBlock
import SchemaDiagram.Text.Alphanumeric
import SchemaDiagram.Text.Blank
import SchemaDiagram.Text.Digits
import SchemaDiagram.Text.Loose
import SchemaDiagram.Text.Numeral
import SchemaDiagram.Text.Printable
import SchemaDiagram.Text.Quoted
import SchemaDiagram.Text.Ranges
import SchemaDiagram.Text.Search
import SchemaDiagram.Toml.Reader
import SchemaDiagram.Toml.Scalar
import SchemaDiagram.Toml.Text
import SchemaDiagram.Toml.Tree
import SchemaDiagram.Proofs.Canvas.Clearance
import SchemaDiagram.Proofs.Canvas.Limits
import SchemaDiagram.Proofs.Registry
import SchemaDiagram.Proofs.Placement.Search
import SchemaDiagram.Proofs.Placement.Run
import SchemaDiagram.Proofs.Canvas.Drag
import SchemaDiagram.Proofs.Placement.Safety
import SchemaDiagram.Proofs.Schema.Tables
import SchemaDiagram.Proofs.Editor.Clearance
import SchemaDiagram.Proofs.Schema.Keyword
import SchemaDiagram.Proofs.Text.Words
import SchemaDiagram.Proofs.Schema.Reading
import SchemaDiagram.Proofs.Schema.Remarks
import SchemaDiagram.Proofs.Schema.Printed
import SchemaDiagram.Proofs.Schema.Line
import SchemaDiagram.Proofs.Schema.ReferencePass
import SchemaDiagram.Proofs.Schema.ReferenceSetting
import SchemaDiagram.Proofs.Schema.Recovery
import SchemaDiagram.Proofs.Schema.TypeWord
import SchemaDiagram.Proofs.Schema.Written
import SchemaDiagram.Proofs.Schema.IssueLines
import SchemaDiagram.Proofs.Schema.Redefinition
import SchemaDiagram.Proofs.Text.Lines
import SchemaDiagram.Proofs.Schema.Reflection
import SchemaDiagram.Proofs.Schema.LineCount
import SchemaDiagram.Proofs.Schema.Opening
import SchemaDiagram.Proofs.Schema.ActionCases
import SchemaDiagram.Proofs.Schema.Passes
import SchemaDiagram.Proofs.Schema.Seam
import SchemaDiagram.Proofs.Schema.Behind
import SchemaDiagram.Proofs.Schema.Ahead
import SchemaDiagram.Proofs.Schema.Parts
import SchemaDiagram.Proofs.Schema.Resilience
import SchemaDiagram.Proofs.Schema.Barrier
import SchemaDiagram.Proofs.Schema.Isolation
import SchemaDiagram.Proofs.Schema.Totality
import SchemaDiagram.Proofs.Schema.Appending
import SchemaDiagram.Proofs.Connector.Route
import SchemaDiagram.Proofs.Connector.Clearance
import SchemaDiagram.Proofs.Placement.Frame
import SchemaDiagram.Proofs.Diagram.Build
import SchemaDiagram.Proofs.Diagram.Frame
import SchemaDiagram.Proofs.Diagram.Rendering
import SchemaDiagram.Proofs.Command.Check
import SchemaDiagram.Proofs.Number.Rounding
import SchemaDiagram.Proofs.Number.Digits
import SchemaDiagram.Proofs.Number.Nearest
import SchemaDiagram.Proofs.Number.Numeral
import SchemaDiagram.Proofs.Json.Number
import SchemaDiagram.Proofs.Json.Text
import SchemaDiagram.Proofs.Json.Scan
import SchemaDiagram.Proofs.Json.RoundTrip
import SchemaDiagram.Proofs.Diagram.Positions
import SchemaDiagram.Proofs.Diagram.Coordinates
import SchemaDiagram.Proofs.Diagram.Restoring
import SchemaDiagram.Proofs.Placement.Order
import SchemaDiagram.Proofs.Placement.Incremental
import SchemaDiagram.Proofs.Page.Form
import SchemaDiagram.Proofs.Page.Census
import SchemaDiagram.Proofs.Diagram.Page
import SchemaDiagram.Proofs.Number.Bounds
import SchemaDiagram.Proofs.Number.Tame
import SchemaDiagram.Proofs.Number.Angle
import SchemaDiagram.Proofs.Placement.Totality
import SchemaDiagram.Proofs.Connector.Totality
import SchemaDiagram.Proofs.Diagram.Totality
import SchemaDiagram.Proofs.Number.Accuracy
import SchemaDiagram.Proofs.Number.Quotient
import SchemaDiagram.Proofs.Number.Exactness
import SchemaDiagram.Proofs.Canvas.Clamping
import SchemaDiagram.Proofs.Canvas.Nearest
import SchemaDiagram.Proofs.Placement.Below
import SchemaDiagram.Proofs.Placement.Rows
import SchemaDiagram.Proofs.Canvas.Distance
import SchemaDiagram.Proofs.Connector.Corners
import SchemaDiagram.Proofs.Canvas.Landing
import SchemaDiagram.Proofs.Number.Symmetry
import SchemaDiagram.Proofs.Connector.Reversal
import SchemaDiagram.Proofs.Page.Attachment
import SchemaDiagram.Proofs.Page.Viewport
import SchemaDiagram.Proofs.Number.Brevity
import SchemaDiagram.Proofs.Connector.PathText
import SchemaDiagram.Proofs.Config.Acceptance
import SchemaDiagram.Proofs.Config.Divisors
import SchemaDiagram.Proofs.Schema.KeywordSearch
import SchemaDiagram.Proofs.Command.Reflected
import SchemaDiagram.Proofs.Text.Spacing
import SchemaDiagram.Proofs.Schema.Retarget
import SchemaDiagram.Proofs.Text.LineEnds
import SchemaDiagram.Proofs.Schema.TrailingBlanks
import SchemaDiagram.Proofs.Schema.LineEnds
import SchemaDiagram.Proofs.Schema.LineQueries
import SchemaDiagram.Proofs.Schema.SettingGroups
