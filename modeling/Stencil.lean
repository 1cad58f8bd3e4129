import Stencil.Command
import Stencil.Command.Draft
import Stencil.Command.Switch
import Stencil.Decimal.Binary
import Stencil.Decimal.Layout
import Stencil.Decimal.Numeral
import Stencil.Decimal.Rounded
import Stencil.Decimal.Shortest
import Stencil.Decimal.Signed
import Stencil.Environment
import Stencil.Failure
import Stencil.Files
import Stencil.Files.Path
import Stencil.Filling
import Stencil.Format
import Stencil.Format.Chain
import Stencil.Inputs
import Stencil.Inputs.Lookup
import Stencil.Inputs.Source
import Stencil.Json.Basic
import Stencil.Json.Printer
import Stencil.Json.Reader
import Stencil.KeyValue.Printer
import Stencil.KeyValue.Quoted
import Stencil.KeyValue.Reader
import Stencil.Kind
import Stencil.Log
import Stencil.Log.Event
import Stencil.Log.Filter
import Stencil.Main
import Stencil.Members
import Stencil.Publication
import Stencil.Publication.Entry
import Stencil.Rejection
import Stencil.Rendering
import Stencil.Session
import Stencil.Session.Steps
import Stencil.Template.Arguments
import Stencil.Template.Constant
import Stencil.Template.Escape
import Stencil.Template.Evaluation
import Stencil.Template.Expr
import Stencil.Template.Fault
import Stencil.Template.Filter
import Stencil.Template.Filter.Number
import Stencil.Template.Filter.Pattern
import Stencil.Template.Filter.Sequence
import Stencil.Template.Filter.Text
import Stencil.Template.Function
import Stencil.Template.Names
import Stencil.Template.Parser.Cursor
import Stencil.Template.Parser.Expr
import Stencil.Template.Parser.Stmt
import Stencil.Template.Stmt
import Stencil.Template.Store
import Stencil.Template.Test
import Stencil.Template.Token
import Stencil.Template.Token.Lexer
import Stencil.Template.Token.Literal
import Stencil.Template.Value
import Stencil.Template.Value.Access
import Stencil.Template.Value.Arithmetic
import Stencil.Template.Value.Document
import Stencil.Template.Value.Order
import Stencil.Template.Value.Text
import Stencil.Text.Blank
import Stencil.Text.Case
import Stencil.Text.CaseTable
import Stencil.Text.DisplayTable
import Stencil.Text.Escape.Html
import Stencil.Text.Escape.Line
import Stencil.Text.Lines
import Stencil.Text.Occurrence
import Stencil.Text.Quoted
import Stencil.Variables
import Stencil.Yaml.Conversion
import Stencil.Yaml.Node
import Stencil.Yaml.Node.Expansion
import Stencil.Yaml.Node.Reader
import Stencil.Yaml.Record
import Stencil.Yaml.Scalar
import Stencil.Yaml.Token
import Stencil.Yaml.Token.Block
import Stencil.Yaml.Token.Character
import Stencil.Yaml.Token.Flow
import Stencil.Yaml.Token.Gap
import Stencil.Yaml.Token.Lexer
import Stencil.Yaml.Token.Property
import Stencil.Yaml.Tree
import Stencil.Yaml.Value
import Stencil.Yaml.Value.Reader
import Stencil.Proofs.KeyValue.Quoted
import Stencil.Proofs.Text.Lines
import Stencil.Proofs.Text.Trim
import Stencil.Proofs.KeyValue.Grammar
import Stencil.Proofs.KeyValue.Reading
import Stencil.Proofs.KeyValue.RoundTrip
import Stencil.Proofs.Files.Writing
import Stencil.Proofs.Files.Standing
import Stencil.Proofs.Publication.Entry
import Stencil.Proofs.Publication.History
import Stencil.Proofs.Publication.Failure
import Stencil.Proofs.Publication.Success
import Stencil.Proofs.Session.Stages
import Stencil.Proofs.Text.Html
import Stencil.Proofs.Preserves
import Stencil.Proofs.Template.Unmarked
import Stencil.Proofs.Template.Unmarked.Store
import Stencil.Proofs.Template.Unmarked.Evaluation
import Stencil.Proofs.Template.Unmarked.Filter
import Stencil.Proofs.Template.Unmarked.Literal
import Stencil.Proofs.Template.Every
import Stencil.Proofs.Template.Locality
import Stencil.Proofs.Template.Parser.Cursor
import Stencil.Proofs.Template.Parser.Expr
import Stencil.Proofs.Template.Parser.Stmt
import Stencil.Proofs.Rendering
import Stencil.Proofs.Template.Harmless
import Stencil.Proofs.Escaping
import Stencil.Proofs.Format.Chain
import Stencil.Proofs.Yaml.Conversion
import Stencil.Proofs.Yaml.Opening
import Stencil.Proofs.Yaml.Cutting
import Stencil.Proofs.Yaml.Scalar
import Stencil.Proofs.Json.Bare
import Stencil.Proofs.Json.Quoted
import Stencil.Proofs.Json.Reading
import Stencil.Proofs.KeyValue.Detection
import Stencil.Proofs.Json.RoundTrip
import Stencil.Proofs.Yaml.Shared
import Stencil.Proofs.Yaml.Brackets
import Stencil.Proofs.KeyValue.Opening
import Stencil.Proofs.Format.Disguise
import Stencil.Proofs.KeyValue.Trimming
import Stencil.Proofs.KeyValue.LineEndings
import Stencil.Proofs.Json.Trimming
import Stencil.Proofs.Yaml.Reading
import Stencil.Proofs.Yaml.Rest
import Stencil.Proofs.Yaml.Behind.Character
import Stencil.Proofs.Yaml.Behind.Property
import Stencil.Proofs.Yaml.Behind.Flow
import Stencil.Proofs.Yaml.Behind.Block
import Stencil.Proofs.Yaml.Frame
import Stencil.Proofs.Yaml.Behind.Lexer
import Stencil.Proofs.Yaml.Progress
import Stencil.Proofs.Yaml.Steps
import Stencil.Proofs.Yaml.Ahead.Place
import Stencil.Proofs.Yaml.Ahead.Token
import Stencil.Proofs.Yaml.Ahead.Run
import Stencil.Proofs.Yaml.Trimming
import Stencil.Proofs.Yaml.Inline
import Stencil.Proofs.Yaml.Unanchored
import Stencil.Proofs.Yaml.Word
import Stencil.Proofs.Yaml.BlockMapping
import Stencil.Proofs.Yaml.Detection
import Stencil.Proofs.Json.Written
import Stencil.Proofs.Yaml.Written.Scalar
import Stencil.Proofs.Yaml.Written.Place
import Stencil.Proofs.Yaml.Written.Tokens
import Stencil.Proofs.Yaml.Written.Tree
import Stencil.Proofs.Yaml.Written.Value
import Stencil.Proofs.Yaml.Collision
import Stencil.Proofs.Format.Subset
import Stencil.Proofs.Inputs.Trimming
import Stencil.Proofs.KeyValue.Composition
import Stencil.Proofs.KeyValue.FirstFault
import Stencil.Proofs.Format.History
import Stencil.Proofs.Inputs.Lookup
import Stencil.Proofs.Inputs.Precedence
import Stencil.Proofs.Inputs.Ignored
import Stencil.Proofs.Template.Cutting
import Stencil.Proofs.Template.Form
import Stencil.Proofs.Template.Parser.Yields
import Stencil.Proofs.Template.Parser.Operand
import Stencil.Proofs.Template.Parser.Body
import Stencil.Proofs.Template.Walk
import Stencil.Proofs.Template.Printing
import Stencil.Proofs.Substitution
import Stencil.Proofs.Inputs.Decision
import Stencil.Proofs.Template.Piped
import Stencil.Proofs.Template.Parser.Piped
import Stencil.Proofs.Template.Marker
import Stencil.Proofs.Newline
import Stencil.Proofs.Fallback
import Stencil.Proofs.Template.LoopForm
import Stencil.Proofs.Template.Parser.Loop
import Stencil.Proofs.Template.Looping
import Stencil.Proofs.Yaml.Atoms
import Stencil.Proofs.Yaml.Order
import Stencil.Proofs.Yaml.Listing
import Stencil.Proofs.Json.Listing
import Stencil.Proofs.Format.Listing
import Stencil.Proofs.Iteration
import Stencil.Proofs.Reporting
import Stencil.Proofs.KeyValue.OnePass
import Stencil.Proofs.KeyValue.Comments
