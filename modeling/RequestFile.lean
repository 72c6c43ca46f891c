import RequestFile.Assembly
import RequestFile.BodyFile
import RequestFile.Calendar.Date
import RequestFile.Calendar.Format
import RequestFile.Calendar.Item
import RequestFile.Calendar.Moment
import RequestFile.Decimal.Layout
import RequestFile.Decimal.Read
import RequestFile.Decimal.Shortest
import RequestFile.Directive
import RequestFile.Document
import RequestFile.Document.Json
import RequestFile.Generator
import RequestFile.Generator.Error
import RequestFile.Generator.Offset
import RequestFile.Json.Path
import RequestFile.Json.Reader
import RequestFile.Json.Record
import RequestFile.Json.Tree
import RequestFile.Json.Value
import RequestFile.Method
import RequestFile.Options
import RequestFile.Options.Settings
import RequestFile.ParseError
import RequestFile.Placeholder
import RequestFile.Reference
import RequestFile.Request
import RequestFile.Resolution
import RequestFile.ResponseReference
import RequestFile.Session
import RequestFile.Snapshot
import RequestFile.Table
import RequestFile.Text.Basic
import RequestFile.Text.Character
import RequestFile.Text.Quoted
import RequestFile.Token
import RequestFile.Token.RequestLine
import RequestFile.Token.Scan
import RequestFile.Validation
import RequestFile.Proofs.Reference.Circular
import RequestFile.Proofs.Placeholder.Written
import RequestFile.Proofs.Resolution.Circular
import RequestFile.Proofs.Assembly.Block
import RequestFile.Proofs.Text.Blank
import RequestFile.Proofs.Token.BodyFile
import RequestFile.Proofs.Text.Line
import RequestFile.Proofs.Token.Recognize
import RequestFile.Proofs.Token.Scan
import RequestFile.Proofs.Written.File
import RequestFile.Proofs.Written.Line
import RequestFile.Proofs.Written.Content
import RequestFile.Proofs.Written.Read
import RequestFile.Proofs.Written.Parse
import RequestFile.Proofs.Name
import RequestFile.Proofs.Validation.Report
import RequestFile.Proofs.Validation.RepeatedName
import RequestFile.Proofs.Assembly.Check
import RequestFile.Proofs.Assembly.Duplicate
import RequestFile.Proofs.Assembly.Strict
import RequestFile.Proofs.ResponseReference
import RequestFile.Proofs.Assembly.RequestName
import RequestFile.Proofs.Assembly.Place
import RequestFile.Proofs.Calendar.Written
import RequestFile.Proofs.Calendar.Pattern
import RequestFile.Proofs.Generator
import RequestFile.Proofs.Placeholder.Template
import RequestFile.Proofs.Resolution.Flatten
import RequestFile.Proofs.Decimal.Integer
import RequestFile.Proofs.Validation.Sound
import RequestFile.Proofs.Validation.Place
import RequestFile.Proofs.Token.Line
import RequestFile.Proofs.Token.Separator
import RequestFile.Proofs.Placeholder.Occurrence
import RequestFile.Proofs.Placeholder.Escape
import RequestFile.Proofs.Resolution.Verbatim
import RequestFile.Proofs.Assembly.Sequence
import RequestFile.Proofs.Validation.Order
import RequestFile.Proofs.Text.Break
import RequestFile.Proofs.Token.CarriageReturn
import RequestFile.Proofs.Snapshot
import RequestFile.Proofs.Resolution.Response
import RequestFile.Proofs.Json.Text
import RequestFile.Proofs.Json.Tree
import RequestFile.Proofs.Json.Record
import RequestFile.Proofs.Document.Json
import RequestFile.Proofs.Document.Line
import RequestFile.Proofs.Resolution.Reach
import RequestFile.Proofs.Resolution.Environment
import RequestFile.Proofs.Resolution.Idempotent
import RequestFile.Proofs.Assembly.Options
import RequestFile.Proofs.Json.Path
import RequestFile.Proofs.Resolution.Unresolved
import RequestFile.Proofs.Resolution.Visit
import RequestFile.Proofs.Assembly.DefaultName
import RequestFile.Proofs.Json.Grammar
import RequestFile.Proofs.Token.Bracket
import RequestFile.Proofs.Written.LiteralBody
import RequestFile.Proofs.Written.JsonBody
import RequestFile.Proofs.Generator.Offset
import RequestFile.Proofs.Written.RequestLine
import RequestFile.Proofs.Written.StoredBody
import RequestFile.Proofs.Generator.Sign
import RequestFile.Proofs.Generator.Argument
import RequestFile.Proofs.Text.Replace
import RequestFile.Proofs.Session
