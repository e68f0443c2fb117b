import NoteStencil.Binary64
import NoteStencil.Buffer
import NoteStencil.Clock.Calendar
import NoteStencil.Clock.Pattern
import NoteStencil.Command.Arguments
import NoteStencil.Command.LogFilter
import NoteStencil.Command.Run
import NoteStencil.Config
import NoteStencil.Console
import NoteStencil.Context
import NoteStencil.Dictionary
import NoteStencil.Disk
import NoteStencil.Environment
import NoteStencil.Expansion
import NoteStencil.Failure
import NoteStencil.Fault
import NoteStencil.FileSystem.Access
import NoteStencil.FileSystem.Basic
import NoteStencil.FileSystem.Listing
import NoteStencil.FileSystem.Store
import NoteStencil.Frontmatter
import NoteStencil.Main
import NoteStencil.Merge
import NoteStencil.Note.Basic
import NoteStencil.Note.Read
import NoteStencil.Note.Written
import NoteStencil.Path
import NoteStencil.Proofs.Insertion
import NoteStencil.Proofs.Leading
import NoteStencil.Proofs.NoteFields
import NoteStencil.Proofs.TextLines
import NoteStencil.Settings
import NoteStencil.Table
import NoteStencil.Template.Engine
import NoteStencil.Template.Lookup
import NoteStencil.Text.Alphanumeric
import NoteStencil.Text.Blank
import NoteStencil.Text.Distance
import NoteStencil.Text.Escaped
import NoteStencil.Text.Hidden
import NoteStencil.Text.Lines
import NoteStencil.Text.Numeral
import NoteStencil.Text.Utf8
import NoteStencil.Toml.Document
import NoteStencil.Toml.Token
import NoteStencil.Toml.Value
import NoteStencil.Toml.Word
import NoteStencil.Toml.Written
import NoteStencil.Yaml.Document
import NoteStencil.Yaml.NumberText
import NoteStencil.Yaml.Scalar
import NoteStencil.Yaml.ScalarText
import NoteStencil.Yaml.Shown
import NoteStencil.Yaml.Spot
import NoteStencil.Yaml.Token
import NoteStencil.Yaml.Tree
import NoteStencil.Yaml.Value
import NoteStencil.Yaml.Written
import NoteStencil.Proofs.WrittenLines
import NoteStencil.Proofs.Described
import NoteStencil.Proofs.Reread
import NoteStencil.Proofs.Tokens
import NoteStencil.Proofs.Asking
import NoteStencil.Proofs.Places
import NoteStencil.Proofs.Making
import NoteStencil.Proofs.Destinations
import NoteStencil.Proofs.Parents
import NoteStencil.Proofs.Rooted
import NoteStencil.Proofs.Cloning
import NoteStencil.Proofs.LineFeeds
import NoteStencil.Proofs.Commands
import NoteStencil.Proofs.Octets
import NoteStencil.Proofs.Filling
import NoteStencil.Proofs.Agreement
import NoteStencil.Proofs.Persistence
import NoteStencil.Proofs.SameBody
import NoteStencil.Proofs.Sameness
import NoteStencil.Proofs.Merging
import NoteStencil.Proofs.Reachable
import NoteStencil.Proofs.Repeating
import NoteStencil.Proofs.Reporting
import NoteStencil.Proofs.Splitting
import NoteStencil.Proofs.Pulling
import NoteStencil.Proofs.Streaming
import NoteStencil.Proofs.SavedLines
import NoteStencil.Proofs.LineByLine
import NoteStencil.Proofs.TypedAnswers
import NoteStencil.Proofs.Joined
import NoteStencil.Proofs.Descent
import NoteStencil.Proofs.Lookup
import NoteStencil.Proofs.Suggestions
import NoteStencil.Proofs.Breaks
import NoteStencil.Proofs.Configuration
import NoteStencil.Proofs.EditDistance
import NoteStencil.Proofs.Editing
import NoteStencil.Proofs.Nearest
