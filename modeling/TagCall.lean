import TagCall.Command.Arguments
import TagCall.Command.Batch
import TagCall.Command.Run
import TagCall.Command.Usage
import TagCall.Compile
import TagCall.Config.Basic
import TagCall.Config.Load
import TagCall.Config.Template
import TagCall.Files.Path
import TagCall.Files.Store
import TagCall.Json.Basic
import TagCall.Json.Read
import TagCall.Json.Write
import TagCall.Length
import TagCall.Log
import TagCall.Number.Arithmetic
import TagCall.Number.Binary64
import TagCall.Proofs.Token.Cut
import TagCall.Proofs.Token.Lexeme
import TagCall.Scalar
import TagCall.Setting.Basic
import TagCall.SourceFile
import TagCall.Text.Blank
import TagCall.Text.Bytes
import TagCall.Text.Digit
import TagCall.Text.Numeral
import TagCall.Text.Pieces
import TagCall.Text.Printable
import TagCall.Text.Quoted
import TagCall.Timestamp
import TagCall.Token.Basic
import TagCall.Token.Queue
import TagCall.Token.Scan
import TagCall.Tree.Basic
import TagCall.Tree.Dump
import TagCall.Tree.Html
import TagCall.Tree.Indent
import TagCall.Tree.Layout
import TagCall.Tree.Loose
import TagCall.Tree.Mixed
import TagCall.Tree.Read
import TagCall.Yaml.Cursor
import TagCall.Yaml.Directive
import TagCall.Yaml.Draft
import TagCall.Yaml.Key
import TagCall.Yaml.Number
import TagCall.Yaml.Plain
import TagCall.Yaml.Quoted
import TagCall.Yaml.Read
import TagCall.Yaml.Timestamp
import TagCall.Main
import TagCall.Proofs.Tree.Acceptance
import TagCall.Proofs.Token.Join
import TagCall.Proofs.Tree.Idempotence
import TagCall.Proofs.Tree.Comments
import TagCall.Proofs.Tree.Texts
import TagCall.Proofs.Tree.Markup
import TagCall.Proofs.Tree.Concatenation
import TagCall.Proofs.Files.Store
import TagCall.Proofs.Files.Folders
import TagCall.Proofs.Command.Isolation
import TagCall.Proofs.Text.Bytes
import TagCall.Proofs.Tree.Stored
import TagCall.Proofs.Command.Batch
import TagCall.Proofs.Tree.Faults
import TagCall.Proofs.Tree.Padding
import TagCall.Proofs.Tree.Spans
import TagCall.Proofs.Json.RoundTrip
import TagCall.Proofs.Tree.Dump
import TagCall.Proofs.Command.Outputs
import TagCall.Proofs.Config.Layers
import TagCall.Proofs.Config.Tags
import TagCall.Proofs.Command.Crashes
import TagCall.Proofs.Tree.Extent
import TagCall.Proofs.Tree.Schema
import TagCall.Proofs.Text.Saved
import TagCall.Proofs.Tree.Outline
import TagCall.Proofs.Text.Numeral
import TagCall.Proofs.Tree.Indent
import TagCall.Proofs.Token.Queue
import TagCall.Proofs.Token.Calls
import TagCall.Proofs.Tree.Attributes
import TagCall.Proofs.Tree.Progress
import TagCall.Proofs.Tree.Outside
