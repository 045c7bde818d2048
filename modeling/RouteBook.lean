import RouteBook.CommandLine.Basic
import RouteBook.CommandLine.Message
import RouteBook.CommandLine.Parse
import RouteBook.Decimal.Binary
import RouteBook.Decimal.Shortest
import RouteBook.FileTree.Basic
import RouteBook.FileTree.Errno
import RouteBook.FileTree.Files
import RouteBook.FileTree.IoError
import RouteBook.FileTree.Path
import RouteBook.FileTree.Resolve
import RouteBook.Generator.Command
import RouteBook.Generator.Error
import RouteBook.Generator.Inputs
import RouteBook.Generator.Options
import RouteBook.Generator.Run
import RouteBook.Http.Message
import RouteBook.Http.Query
import RouteBook.Http.Router
import RouteBook.Http.Uri
import RouteBook.Json.Fault
import RouteBook.Json.Number
import RouteBook.Json.Outline
import RouteBook.Json.Print
import RouteBook.Json.Record
import RouteBook.Json.Scan
import RouteBook.Json.Skip
import RouteBook.Json.Value
import RouteBook.Log.Event
import RouteBook.Log.Filter
import RouteBook.Log.Format
import RouteBook.Log.Line
import RouteBook.Main
import RouteBook.Markdown.Block
import RouteBook.Markdown.Entity
import RouteBook.Markdown.Escape
import RouteBook.Markdown.Event
import RouteBook.Markdown.Html
import RouteBook.Markdown.Inline
import RouteBook.Markdown.Leaf
import RouteBook.Markdown.Line
import RouteBook.Markdown.Link
import RouteBook.Markdown.Tag
import RouteBook.OpenApi.Document
import RouteBook.OpenApi.Grammar
import RouteBook.OpenApi.Shape
import RouteBook.Program.EnvFile
import RouteBook.Program.Generate
import RouteBook.Program.Output
import RouteBook.Program.Serve
import RouteBook.Proofs.FileTree.Growth
import RouteBook.Routes.Basic
import RouteBook.Routes.Collect
import RouteBook.Server.Address
import RouteBook.Server.Config
import RouteBook.Service.App
import RouteBook.Service.Description
import RouteBook.Service.Handles
import RouteBook.Service.RequestId
import RouteBook.Service.Tracing
import RouteBook.Service.Users
import RouteBook.Text.Blank
import RouteBook.Text.Bytes
import RouteBook.Text.Fold
import RouteBook.Text.Html
import RouteBook.Text.Integer
import RouteBook.Text.Punctuation
import RouteBook.Text.Quoted
import RouteBook.Text.Ranges
import RouteBook.Text.Search
import RouteBook.Text.Similar
import RouteBook.Text.Visible
import RouteBook.Viewer.Command
import RouteBook.Viewer.Library
import RouteBook.Viewer.Page
import RouteBook.Yaml.Print
import RouteBook.Yaml.Scalar
import RouteBook.Proofs.FileTree.Leads
import RouteBook.Proofs.FileTree.Changes
import RouteBook.Proofs.FileTree.Paths
import RouteBook.Proofs.Generator.Writing
import RouteBook.Proofs.FileTree.LinkFree
import RouteBook.Proofs.FileTree.Directories
import RouteBook.Proofs.FileTree.Ancestors
import RouteBook.Proofs.Generator.Targets
import RouteBook.Proofs.Generator.Runs
import RouteBook.Proofs.Text.Order
import RouteBook.Proofs.Viewer.Confinement
import RouteBook.Proofs.Markdown.Levels
import RouteBook.Proofs.Markdown.Markup
import RouteBook.Proofs.Viewer.Markup
import RouteBook.Proofs.Markdown.Lines
import RouteBook.Proofs.Markdown.Blocks
import RouteBook.Proofs.Json.Layout
import RouteBook.Proofs.Text.Words
import RouteBook.Proofs.Routes.Descriptions
import RouteBook.Proofs.Routes.Sections
import RouteBook.Proofs.Viewer.Outline
import RouteBook.Proofs.Routes.Fences
import RouteBook.Proofs.Text.Decoding
import RouteBook.Proofs.Viewer.Answers
import RouteBook.Proofs.Viewer.Generated
import RouteBook.Proofs.Service.Ids
import RouteBook.Proofs.Service.Contract
import RouteBook.Proofs.FileTree.Proper
import RouteBook.Proofs.Service.Interleaving
import RouteBook.Proofs.Generator.Walk
import RouteBook.Proofs.Generator.Regeneration
import RouteBook.Proofs.Text.Lookup
import RouteBook.Proofs.OpenApi.Paths
import RouteBook.Proofs.Routes.Order
import RouteBook.Proofs.Generator.Printing
import RouteBook.Proofs.Generator.Exactness
import RouteBook.Proofs.Text.Traversal
import RouteBook.Proofs.Generator.Loading
import RouteBook.Proofs.Json.Tokens
import RouteBook.Proofs.Json.Spelling
import RouteBook.Proofs.Json.Reading
import RouteBook.Proofs.Json.Printing
import RouteBook.Proofs.Json.Records
import RouteBook.Proofs.Routes.Recovery
import RouteBook.Proofs.Service.Users
import RouteBook.Proofs.Viewer.Index
import RouteBook.Proofs.Viewer.Views
import RouteBook.Proofs.Text.Numerals
import RouteBook.Proofs.Server.Ports
import RouteBook.Proofs.Server.Literals
import RouteBook.Proofs.Server.Addresses
import RouteBook.Proofs.Json.Grammar
import RouteBook.Proofs.Json.Skipping
import RouteBook.Proofs.Json.Members
import RouteBook.Proofs.CommandLine.Spelling
import RouteBook.Proofs.Generator.Precedence
import RouteBook.Proofs.Service.Readiness
import RouteBook.Proofs.Viewer.Names
import RouteBook.Proofs.Generator.Naming
