import Formwright.Main
import Formwright.Storage.Disk
import Formwright.Proofs.Entries
import Formwright.Proofs.Effects
import Formwright.Proofs.Text.Ascii
import Formwright.Proofs.Text.Blanks
import Formwright.Proofs.Text.Reading
import Formwright.Proofs.Text.Pieces
import Formwright.Proofs.Text.Replacement
import Formwright.Proofs.Text.Literal
import Formwright.Proofs.Text.Indentation
import Formwright.Proofs.Text.Shifting
import Formwright.Proofs.Text.Passages
import Formwright.Proofs.Text.CaseMapping
import Formwright.Proofs.Storage.Path
import Formwright.Proofs.Storage.Descent
import Formwright.Proofs.Storage.Disk
import Formwright.Proofs.Storage.Walk
import Formwright.Proofs.Storage.Writing
import Formwright.Proofs.Storage.Session
import Formwright.Proofs.Markup.Scan
import Formwright.Proofs.Markup.Written
import Formwright.Proofs.Markup.Steps
import Formwright.Proofs.Markup.Depth
import Formwright.Proofs.Markup.Nesting
import Formwright.Proofs.Markup.Tokens
import Formwright.Proofs.Markup.Grammar
import Formwright.Proofs.Markup.Spelling
import Formwright.Proofs.Markup.Beginning
import Formwright.Proofs.Markup.Characters
import Formwright.Proofs.Markup.Comments
import Formwright.Proofs.Markup.Positions
import Formwright.Proofs.Script.Modes
import Formwright.Proofs.Script.Plain
import Formwright.Proofs.Script.Readings
import Formwright.Proofs.Script.Matches
import Formwright.Proofs.Script.Cleanup
import Formwright.Proofs.Script.Layout
import Formwright.Proofs.Script.Handlers
import Formwright.Proofs.Script.Sources
import Formwright.Proofs.Script.Lexer
import Formwright.Proofs.Script.Bytes
import Formwright.Proofs.Component.Name
import Formwright.Proofs.Component.Spelling
import Formwright.Proofs.Component.Callback
import Formwright.Proofs.Component.Words
import Formwright.Proofs.Component.Bodies
import Formwright.Proofs.Component.Rendering
import Formwright.Proofs.Component.Conversion
import Formwright.Proofs.Component.Traces
import Formwright.Proofs.Component.Warnings
import Formwright.Proofs.Component.Imports
import Formwright.Proofs.Component.Documents
import Formwright.Proofs.Component.Attribute
import Formwright.Proofs.Component.Fragment
import Formwright.Proofs.Component.Levels
import Formwright.Proofs.Component.Notes
import Formwright.Proofs.Number.Digits
import Formwright.Proofs.Component.Reader
import Formwright.Proofs.Component.Expression
import Formwright.Proofs.Workspace.Units
import Formwright.Proofs.Workspace.Targets
import Formwright.Proofs.Component.Bindings
import Formwright.Proofs.Component.Events
import Formwright.Proofs.Component.Typing
import Formwright.Proofs.Toml.Remainder
import Formwright.Proofs.Toml.Numbers
import Formwright.Proofs.Toml.Settled
import Formwright.Proofs.Toml.Lines
import Formwright.Proofs.Toml.Quoted
import Formwright.Proofs.Manifest.Numbers
import Formwright.Proofs.Markup.Removal
import Formwright.Proofs.Form.Comments
import Formwright.Proofs.Manifest.Starter
import Formwright.Proofs.Markup.Values
import Formwright.Proofs.Workspace.Starter
import Formwright.Proofs.Workspace.Escaping
import Formwright.Proofs.Component.Rules
import Formwright.Proofs.Form.Notation
import Formwright.Proofs.Form.WellFormed
import Formwright.Proofs.Mapping.Writes
import Formwright.Proofs.Mapping.Defaults
import Formwright.Proofs.Script.Context
import Formwright.Proofs.Number.Rounding
import Formwright.Proofs.Number.Decimals
import Formwright.Proofs.Number.Numeral
import Formwright.Proofs.Form.Literals
import Formwright.Proofs.Text.Utf8
import Formwright.Proofs.Storage.Directory
import Formwright.Proofs.Storage.Reordering
import Formwright.Proofs.Component.Beginning
import Formwright.Proofs.Manifest.Reading
import Formwright.Proofs.Workspace.Extensions
import Formwright.Proofs.Command.Listing
import Formwright.Proofs.Workspace.Walk
import Formwright.Proofs.Workspace.Keys
import Formwright.Proofs.Workspace.Discovery
