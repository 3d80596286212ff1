import TagLoom.Address
import TagLoom.Builtin
import TagLoom.Bytes
import TagLoom.Bytes.Base64
import TagLoom.Bytes.Quoted
import TagLoom.Bytes.Utf8
import TagLoom.CheckCommand
import TagLoom.Choice
import TagLoom.Code
import TagLoom.Code.Emit
import TagLoom.Code.Print
import TagLoom.Code.Review
import TagLoom.CommandLine
import TagLoom.CommandLine.Command
import TagLoom.CommandLine.Flag
import TagLoom.CommandLine.Startup
import TagLoom.Compilation
import TagLoom.Debouncer
import TagLoom.Decimal
import TagLoom.Decimal.Notation
import TagLoom.Decimal.Power
import TagLoom.Decimal.Read
import TagLoom.DevSession
import TagLoom.Diagnostic
import TagLoom.Discovery
import TagLoom.Disk
import TagLoom.Duration
import TagLoom.Entity
import TagLoom.EnvironmentFile
import TagLoom.Escape
import TagLoom.Expr.Basic
import TagLoom.Expr.Check
import TagLoom.Expr.Eval
import TagLoom.Expr.Function
import TagLoom.Expr.Parser
import TagLoom.Expr.Plan
import TagLoom.Expr.Simplify
import TagLoom.Expr.Source
import TagLoom.Expr.Token
import TagLoom.Expr.Type
import TagLoom.FileTree
import TagLoom.Glob
import TagLoom.Http
import TagLoom.Hub
import TagLoom.Inference
import TagLoom.Json
import TagLoom.Json.Print
import TagLoom.Logging
import TagLoom.Main
import TagLoom.Manifest
import TagLoom.Manifest.Document
import TagLoom.Markdown
import TagLoom.Markdown.Block
import TagLoom.Markdown.Inline
import TagLoom.Markdown.Markup
import TagLoom.Markdown.Text
import TagLoom.Markup
import TagLoom.Output
import TagLoom.Overlay
import TagLoom.Page
import TagLoom.Path
import TagLoom.Pattern
import TagLoom.Pattern.Reader
import TagLoom.Placement
import TagLoom.Proofs.Bytes.Text
import TagLoom.Proofs.Bytes.Utf8
import TagLoom.Proofs.CheckCommand.Accepted
import TagLoom.Proofs.Code.Arguments
import TagLoom.Proofs.Code.Declared
import TagLoom.Proofs.Code.Emission
import TagLoom.Proofs.Code.Joint
import TagLoom.Proofs.Code.Meaning
import TagLoom.Proofs.Code.Nodes
import TagLoom.Proofs.Code.Package
import TagLoom.Proofs.Code.Prepared
import TagLoom.Proofs.Code.Refinement
import TagLoom.Proofs.Code.Registered
import TagLoom.Proofs.Code.Scopes
import TagLoom.Proofs.Code.Simulation
import TagLoom.Proofs.Code.TextLiteral
import TagLoom.Proofs.Code.Variables
import TagLoom.Proofs.Compilation.Accepted
import TagLoom.Proofs.Compilation.Names
import TagLoom.Proofs.Compilation.Outcome
import TagLoom.Proofs.Compilation.Passes
import TagLoom.Proofs.Debouncer.Batch
import TagLoom.Proofs.Diagnostic.Order
import TagLoom.Proofs.Discovery.Logical
import TagLoom.Proofs.Disk.Directory
import TagLoom.Proofs.Disk.Place
import TagLoom.Proofs.Disk.Tree
import TagLoom.Proofs.Expr.Function
import TagLoom.Proofs.Expr.Graft
import TagLoom.Proofs.Expr.Names
import TagLoom.Proofs.Expr.Words
import TagLoom.Proofs.Hub.Traffic
import TagLoom.Proofs.Inference.CallSites
import TagLoom.Proofs.Inference.Evidence
import TagLoom.Proofs.Inference.Names
import TagLoom.Proofs.Inference.Order
import TagLoom.Proofs.Inference.Origin
import TagLoom.Proofs.Inference.Paths
import TagLoom.Proofs.Inference.Position
import TagLoom.Proofs.Inference.Soundness
import TagLoom.Proofs.Inference.SourceOrder
import TagLoom.Proofs.Inference.Spread
import TagLoom.Proofs.Markup.Append
import TagLoom.Proofs.Markup.AttrName
import TagLoom.Proofs.Markup.Escaped
import TagLoom.Proofs.Markup.Fields
import TagLoom.Proofs.Markup.Step
import TagLoom.Proofs.Markup.Verbatim
import TagLoom.Proofs.Output.Written
import TagLoom.Proofs.Overlay.Gaps
import TagLoom.Proofs.Page.Failure
import TagLoom.Proofs.Page.Refusal
import TagLoom.Proofs.Path.Below
import TagLoom.Proofs.Placement.Braces
import TagLoom.Proofs.Placement.Shape
import TagLoom.Proofs.Placement.Soundness
import TagLoom.Proofs.Rendering.Evaluator
import TagLoom.Proofs.Rendering.Maps
import TagLoom.Proofs.Rendering.Pieces
import TagLoom.Proofs.Rendering.Refusal
import TagLoom.Proofs.Rendering.Scope
import TagLoom.Proofs.Rendering.Sits
import TagLoom.Proofs.Rendering.Values
import TagLoom.Proofs.Server.Script
import TagLoom.Proofs.Session.Readers
import TagLoom.Proofs.Session.Run
import TagLoom.Proofs.Session.State
import TagLoom.Proofs.Stateful
import TagLoom.Proofs.Suggestion.Nearest
import TagLoom.Proofs.TagSet.Build
import TagLoom.Proofs.TagSet.Components
import TagLoom.Proofs.TagSet.Declared
import TagLoom.Proofs.TagSet.Recursion
import TagLoom.Proofs.TagSet.Search
import TagLoom.Proofs.Template.Attributes
import TagLoom.Proofs.Template.Course
import TagLoom.Proofs.Template.Cursor
import TagLoom.Proofs.Template.Elements
import TagLoom.Proofs.Template.Enclosed
import TagLoom.Proofs.Template.Ends
import TagLoom.Proofs.Template.Extent
import TagLoom.Proofs.Template.FaultLimit
import TagLoom.Proofs.Template.FaultPlace
import TagLoom.Proofs.Template.Frames
import TagLoom.Proofs.Template.Indent
import TagLoom.Proofs.Template.Layout
import TagLoom.Proofs.Template.Lexeme
import TagLoom.Proofs.Template.LineTable
import TagLoom.Proofs.Template.Local
import TagLoom.Proofs.Template.Mark
import TagLoom.Proofs.Template.Mirror
import TagLoom.Proofs.Template.Offset
import TagLoom.Proofs.Template.Opening
import TagLoom.Proofs.Template.Parts
import TagLoom.Proofs.Template.Plain
import TagLoom.Proofs.Template.QuotedValue
import TagLoom.Proofs.Template.Regions
import TagLoom.Proofs.Template.SameLine
import TagLoom.Proofs.Template.Sequence
import TagLoom.Proofs.Template.Tree
import TagLoom.Proofs.Unicode.Lower
import TagLoom.Proofs.Value.Expand
import TagLoom.Proofs.Value.Graft
import TagLoom.Proofs.Watching.Templates
import TagLoom.Rendering
import TagLoom.Sanitizer
import TagLoom.Sanitizer.Token
import TagLoom.Server
import TagLoom.Server.Model
import TagLoom.Session
import TagLoom.Settings
import TagLoom.Settings.Value
import TagLoom.SourceFile
import TagLoom.Suggestion
import TagLoom.TagSet
import TagLoom.Template.Name
import TagLoom.Template.Node
import TagLoom.Template.Parser
import TagLoom.Template.Token
import TagLoom.ToolOutput
import TagLoom.Unicode.Case
import TagLoom.Unicode.Category
import TagLoom.Unicode.Letter
import TagLoom.Unicode.Printable
import TagLoom.Unicode.Script
import TagLoom.Unicode.Space
import TagLoom.Value
import TagLoom.Value.Arithmetic
import TagLoom.Version
import TagLoom.Version.Timestamp
import TagLoom.Watching
import TagLoom.Yaml
import TagLoom.Yaml.Print
import TagLoom.Yaml.Reader
import TagLoom.Yaml.Token
