import Keybinds.BindFile.Basic
import Keybinds.BindFile.Line
import Keybinds.BindFile.Writer
import Keybinds.Chain.Bytes
import Keybinds.Chain.Mirror
import Keybinds.Chain.Scan
import Keybinds.Clock
import Keybinds.Command.Category
import Keybinds.Command.Definition
import Keybinds.Command.Encoding
import Keybinds.Command.Parameters
import Keybinds.Command.Signature
import Keybinds.Command.Spelling
import Keybinds.Command.TrayFields
import Keybinds.Command.TrayRange
import Keybinds.CommandLine.Arguments
import Keybinds.CommandLine.Invocation
import Keybinds.CommandLine.Run
import Keybinds.Dict
import Keybinds.Files.Access
import Keybinds.Files.Path
import Keybinds.Files.Tree
import Keybinds.Json.Fields
import Keybinds.Json.Node
import Keybinds.Json.Value
import Keybinds.Json.Writer
import Keybinds.Log
import Keybinds.Main
import Keybinds.Migration.Canonical
import Keybinds.Migration.Event
import Keybinds.Migration.Normalize
import Keybinds.Migration.Step
import Keybinds.Migration.Tally
import Keybinds.Name.CharClass
import Keybinds.Name.Config
import Keybinds.Name.Pattern
import Keybinds.Name.Pattern.Reader
import Keybinds.Name.Rules
import Keybinds.Number.Binary
import Keybinds.Number.Numeral
import Keybinds.Number.Shortest
import Keybinds.Profile.Basic
import Keybinds.Profile.Stored
import Keybinds.Proofs.BindFile.Account
import Keybinds.Proofs.BindFile.Declared
import Keybinds.Proofs.BindFile.Denylist
import Keybinds.Proofs.BindFile.Export
import Keybinds.Proofs.BindFile.Exportable
import Keybinds.Proofs.BindFile.Joined
import Keybinds.Proofs.BindFile.Mirrors
import Keybinds.Proofs.BindFile.Printing
import Keybinds.Proofs.BindFile.Reading
import Keybinds.Proofs.BindFile.RoundTrip
import Keybinds.Proofs.Chain.Ahead
import Keybinds.Proofs.Chain.ByteScan
import Keybinds.Proofs.Chain.Checked
import Keybinds.Proofs.Chain.Commands
import Keybinds.Proofs.Chain.Cursor
import Keybinds.Proofs.Chain.Encoded
import Keybinds.Proofs.Chain.Layout
import Keybinds.Proofs.Chain.MirroredBody
import Keybinds.Proofs.Chain.Parts
import Keybinds.Proofs.Chain.Weight
import Keybinds.Proofs.Chain.WellQuoted
import Keybinds.Proofs.Command.Parts
import Keybinds.Proofs.Command.Recognition
import Keybinds.Proofs.Command.Shortening
import Keybinds.Proofs.Command.Spelling
import Keybinds.Proofs.Command.TrayRange
import Keybinds.Proofs.Dict
import Keybinds.Proofs.Files.Paths
import Keybinds.Proofs.Files.Trees
import Keybinds.Proofs.Json.Fields
import Keybinds.Proofs.Json.Trees
import Keybinds.Proofs.List
import Keybinds.Proofs.Migration.Change
import Keybinds.Proofs.Migration.Contract
import Keybinds.Proofs.Migration.Counts
import Keybinds.Proofs.Migration.Depth
import Keybinds.Proofs.Migration.Entries
import Keybinds.Proofs.Migration.Loaders
import Keybinds.Proofs.Migration.MalformedItems
import Keybinds.Proofs.Migration.Mending
import Keybinds.Proofs.Migration.Need
import Keybinds.Proofs.Migration.Normal
import Keybinds.Proofs.Migration.Passes
import Keybinds.Proofs.Migration.Preservation
import Keybinds.Proofs.Migration.RebuiltEntries
import Keybinds.Proofs.Migration.Reports
import Keybinds.Proofs.Migration.StoredShapes
import Keybinds.Proofs.Migration.VersionTag
import Keybinds.Proofs.Number.ReadBack
import Keybinds.Proofs.Number.Rounding
import Keybinds.Proofs.Profile.Conversion
import Keybinds.Proofs.Profile.Edits
import Keybinds.Proofs.Profile.Import
import Keybinds.Proofs.Profile.Merge
import Keybinds.Proofs.Profile.Successive
import Keybinds.Proofs.Store.Catalog
import Keybinds.Proofs.Store.Names
import Keybinds.Proofs.Store.Operations
import Keybinds.Proofs.Store.Runs
import Keybinds.Proofs.Stored.Documents
import Keybinds.Proofs.Stored.Lists
import Keybinds.Proofs.Stored.Rewriting
import Keybinds.Proofs.Stored.Survival
import Keybinds.Proofs.Stored.Texts
import Keybinds.Proofs.Stored.TrayEntries
import Keybinds.Proofs.Stored.Values
import Keybinds.Proofs.Text.Lines
import Keybinds.Proofs.Text.Strip
import Keybinds.Proofs.Text.Words
import Keybinds.Proofs.Version
import Keybinds.Store
import Keybinds.Stored.AliasEntry
import Keybinds.Stored.Commands
import Keybinds.Stored.Document
import Keybinds.Text.Basic
import Keybinds.Text.Numeral
import Keybinds.Text.Unicode
import Keybinds.Version
