import CompletionServer.Capability.Basic
import CompletionServer.Capability.Group
import CompletionServer.Completer
import CompletionServer.Completion.Collect
import CompletionServer.Completion.Item
import CompletionServer.Completion.Service
import CompletionServer.Crash
import CompletionServer.Dictionary
import CompletionServer.Files.Decoding
import CompletionServer.Files.Path
import CompletionServer.Files.Tree
import CompletionServer.Help.Service
import CompletionServer.Json.Reader
import CompletionServer.Json.Token
import CompletionServer.Json.Writer
import CompletionServer.Main
import CompletionServer.Php.Call
import CompletionServer.Php.Declaration
import CompletionServer.Php.Keyword
import CompletionServer.Php.Parameters
import CompletionServer.Php.Signature
import CompletionServer.Php.Variable
import CompletionServer.Php.Word
import CompletionServer.Proofs.Capability.Aggregate
import CompletionServer.Proofs.Completion.Answer
import CompletionServer.Proofs.Completion.Edit
import CompletionServer.Proofs.Completion.Flag
import CompletionServer.Proofs.Completion.Interchange
import CompletionServer.Proofs.Completion.Loop
import CompletionServer.Proofs.Completion.Offer
import CompletionServer.Proofs.Completion.Undisturbed
import CompletionServer.Proofs.Dictionary
import CompletionServer.Proofs.Php.Brackets
import CompletionServer.Proofs.Php.Callee
import CompletionServer.Proofs.Php.Commas
import CompletionServer.Proofs.Php.Declaration
import CompletionServer.Proofs.Php.OwnCall
import CompletionServer.Proofs.Php.Parameters
import CompletionServer.Proofs.Php.Signature
import CompletionServer.Proofs.Php.Variable
import CompletionServer.Proofs.Php.Word
import CompletionServer.Proofs.Registry
import CompletionServer.Proofs.Server.Answers
import CompletionServer.Proofs.Server.Assigning
import CompletionServer.Proofs.Server.Initialise
import CompletionServer.Proofs.Server.Session
import CompletionServer.Proofs.Settings.Crash
import CompletionServer.Proofs.Settings.Fields
import CompletionServer.Proofs.Settings.Layers
import CompletionServer.Proofs.Settings.Merge
import CompletionServer.Proofs.Settings.Nearest
import CompletionServer.Proofs.Settings.Precedence
import CompletionServer.Proofs.Stream.Alike
import CompletionServer.Proofs.Stream.Awaiting
import CompletionServer.Proofs.Stream.Custody
import CompletionServer.Proofs.Stream.Interchange
import CompletionServer.Proofs.Stream.Laws
import CompletionServer.Proofs.Stream.Meaning
import CompletionServer.Proofs.Stream.Naming
import CompletionServer.Proofs.Stream.Opening
import CompletionServer.Proofs.Stream.Reading
import CompletionServer.Proofs.Stream.Release
import CompletionServer.Proofs.Stream.Rest
import CompletionServer.Proofs.Stream.Turns
import CompletionServer.Proofs.Text.Bisection
import CompletionServer.Proofs.Text.Bytes
import CompletionServer.Proofs.Text.Counting
import CompletionServer.Proofs.Text.Decoding
import CompletionServer.Proofs.Text.Lines
import CompletionServer.Proofs.Text.Order
import CompletionServer.Proofs.Text.Places
import CompletionServer.Proofs.Text.RoundTrip
import CompletionServer.Proofs.Text.Runs
import CompletionServer.Proofs.Text.Search
import CompletionServer.Proofs.Text.Table
import CompletionServer.Proofs.Text.Width
import CompletionServer.Registry
import CompletionServer.Report
import CompletionServer.Server.Basic
import CompletionServer.Server.Frame
import CompletionServer.Server.Wire
import CompletionServer.Settings.Config
import CompletionServer.Settings.Load
import CompletionServer.Signature
import CompletionServer.Source
import CompletionServer.Stream.Basic
import CompletionServer.Stream.Cursor
import CompletionServer.Stream.Drain
import CompletionServer.Stream.Operation
import CompletionServer.Stream.Producer
import CompletionServer.Stream.Remaining
import CompletionServer.Stream.Signals
import CompletionServer.Suggestion
import CompletionServer.Text.Casing
import CompletionServer.Text.CodePoint
import CompletionServer.Text.LineTable
import CompletionServer.Text.Lowercase
import CompletionServer.Text.Position
import CompletionServer.Text.Printable
import CompletionServer.Text.Utf8
import CompletionServer.Uri
import CompletionServer.Uri.Host
import CompletionServer.Value.Basic
import CompletionServer.Value.Calendar
import CompletionServer.Value.Display
import CompletionServer.Value.Double
import CompletionServer.Value.Numeral
import CompletionServer.Value.Placement
import CompletionServer.Workspace
import CompletionServer.Yaml.Base64
import CompletionServer.Yaml.Convert
import CompletionServer.Yaml.Document
import CompletionServer.Yaml.Layout
import CompletionServer.Yaml.Lexeme
import CompletionServer.Yaml.Node
import CompletionServer.Yaml.Resolve
import CompletionServer.Yaml.Tag
import CompletionServer.Yaml.Token
