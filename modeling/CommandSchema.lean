import CommandSchema.Arity
import CommandSchema.Artifacts
import CommandSchema.Binary64.Basic
import CommandSchema.Binary64.Shortest
import CommandSchema.Code.Class
import CommandSchema.Code.Field
import CommandSchema.Code.Literal
import CommandSchema.Command.Basic
import CommandSchema.Command.Help
import CommandSchema.CommandOption.Basic
import CommandSchema.CommandOption.Names
import CommandSchema.CommandOption.Resolve
import CommandSchema.CommandOption.Variants
import CommandSchema.Compilation
import CommandSchema.Declaration.Basic
import CommandSchema.Declaration.Decode
import CommandSchema.Declaration.Encode
import CommandSchema.Declaration.Record
import CommandSchema.Fault
import CommandSchema.Files.Access
import CommandSchema.Files.Path
import CommandSchema.Files.Tree
import CommandSchema.Group
import CommandSchema.Invocation.Basic
import CommandSchema.Invocation.CommandLine
import CommandSchema.Invocation.Usage
import CommandSchema.Json.Error
import CommandSchema.Json.Printer
import CommandSchema.Json.Reader
import CommandSchema.Json.Value
import CommandSchema.Loading
import CommandSchema.Main
import CommandSchema.Name
import CommandSchema.NameRegistry
import CommandSchema.Proofs.Arity
import CommandSchema.Proofs.Artifacts.Banner
import CommandSchema.Proofs.Artifacts.Guard
import CommandSchema.Proofs.Code.BaseCall
import CommandSchema.Proofs.Code.ClassMembers
import CommandSchema.Proofs.Code.Classes
import CommandSchema.Proofs.Code.DeclaredClasses
import CommandSchema.Proofs.Code.FieldValues
import CommandSchema.Proofs.Code.HelpTexts
import CommandSchema.Proofs.Code.LineEnds
import CommandSchema.Proofs.Code.Lines
import CommandSchema.Proofs.Code.LiteralLists
import CommandSchema.Proofs.Code.Members
import CommandSchema.Proofs.Code.PrintedListings
import CommandSchema.Proofs.Code.RawLiteral
import CommandSchema.Proofs.Code.RuleTable
import CommandSchema.Proofs.Code.Rules
import CommandSchema.Proofs.Code.RuntimeNames
import CommandSchema.Proofs.Code.Screens
import CommandSchema.Proofs.Code.SeparateHeaders
import CommandSchema.Proofs.Command.Acceptance
import CommandSchema.Proofs.Command.Additions
import CommandSchema.Proofs.Command.Build
import CommandSchema.Proofs.Command.HiddenOptions
import CommandSchema.Proofs.Command.NameChecks
import CommandSchema.Proofs.Command.Order
import CommandSchema.Proofs.Command.Refusals
import CommandSchema.Proofs.Command.Tokens
import CommandSchema.Proofs.Command.UsageTable
import CommandSchema.Proofs.CommandOption.Divisions
import CommandSchema.Proofs.CommandOption.Enumerations
import CommandSchema.Proofs.CommandOption.Names
import CommandSchema.Proofs.CommandOption.Requirements
import CommandSchema.Proofs.CommandOption.Resolve
import CommandSchema.Proofs.CommandOption.Segments
import CommandSchema.Proofs.CommandOption.Types
import CommandSchema.Proofs.CommandOption.Variants
import CommandSchema.Proofs.Compilation.Generated
import CommandSchema.Proofs.Compilation.Prefix
import CommandSchema.Proofs.Compilation.Success
import CommandSchema.Proofs.Declaration.Acceptance
import CommandSchema.Proofs.Declaration.Encoding
import CommandSchema.Proofs.Declaration.FieldOrder
import CommandSchema.Proofs.Declaration.Forms
import CommandSchema.Proofs.Declaration.Grammar
import CommandSchema.Proofs.Declaration.Members
import CommandSchema.Proofs.Declaration.Nulls
import CommandSchema.Proofs.Declaration.Reading
import CommandSchema.Proofs.Declaration.Record
import CommandSchema.Proofs.Files.Directories
import CommandSchema.Proofs.Files.Paths
import CommandSchema.Proofs.Files.Places
import CommandSchema.Proofs.Files.Repetition
import CommandSchema.Proofs.Files.System
import CommandSchema.Proofs.Files.Tree
import CommandSchema.Proofs.Group.Acceptance
import CommandSchema.Proofs.Group.Build
import CommandSchema.Proofs.Group.Listings
import CommandSchema.Proofs.Group.Members
import CommandSchema.Proofs.Json.Ordered
import CommandSchema.Proofs.Json.ReadBack
import CommandSchema.Proofs.Json.Scalars
import CommandSchema.Proofs.Json.Written
import CommandSchema.Proofs.Name.Alphabet
import CommandSchema.Proofs.Name.Class
import CommandSchema.Proofs.Name.Valid
import CommandSchema.Proofs.NameRegistry
import CommandSchema.Proofs.NameRegistry.History
import CommandSchema.Proofs.Outcome
import CommandSchema.Proofs.Requirement
import CommandSchema.Proofs.Run.Agreement
import CommandSchema.Proofs.Run.Changes
import CommandSchema.Proofs.Run.Failure
import CommandSchema.Proofs.Run.Outputs
import CommandSchema.Proofs.Run.Regeneration
import CommandSchema.Proofs.Run.Requests
import CommandSchema.Proofs.Schema.Text
import CommandSchema.Proofs.Schema.WrittenMembers
import CommandSchema.Proofs.Settings.SaveLoad
import CommandSchema.Proofs.Text.Columns
import CommandSchema.Proofs.Text.Lines
import CommandSchema.Proofs.Text.Marks
import CommandSchema.Proofs.Text.Trim
import CommandSchema.Proofs.Text.Utf8
import CommandSchema.Proofs.TopCommand.Names
import CommandSchema.Run
import CommandSchema.Schema
import CommandSchema.Settings.Basic
import CommandSchema.Settings.Yaml
import CommandSchema.Text.Blank
import CommandSchema.Text.Glyph
import CommandSchema.Text.Line
import CommandSchema.Text.Quoted
import CommandSchema.Text.Unshown
import CommandSchema.Text.UpperCase
import CommandSchema.TopCommand
import CommandSchema.Yaml.Cursor
import CommandSchema.Yaml.Node
import CommandSchema.Yaml.Plain
import CommandSchema.Yaml.Printer
import CommandSchema.Yaml.Scalar
import CommandSchema.Yaml.Token
