import SchemaScribe.Binary64.Basic
import SchemaScribe.Binary64.Display
import SchemaScribe.Binary64.Shortest
import SchemaScribe.CommandLine.Arguments
import SchemaScribe.CommandLine.Places
import SchemaScribe.CommandLine.Run
import SchemaScribe.Compile
import SchemaScribe.Entries
import SchemaScribe.FileSystem.Basic
import SchemaScribe.FileSystem.Fault
import SchemaScribe.FileSystem.Node
import SchemaScribe.FileSystem.Writer
import SchemaScribe.Json.Basic
import SchemaScribe.Json.Display
import SchemaScribe.Json.Key
import SchemaScribe.Json.Reader
import SchemaScribe.Layout
import SchemaScribe.Main
import SchemaScribe.Model.Field
import SchemaScribe.Model.FieldType
import SchemaScribe.Model.TypeScript
import SchemaScribe.Notice
import SchemaScribe.Options
import SchemaScribe.Path.Basic
import SchemaScribe.Path.File
import SchemaScribe.Proofs.CommandLine.Configuration
import SchemaScribe.Proofs.CommandLine.Plan
import SchemaScribe.Proofs.Compile.Acceptance
import SchemaScribe.Proofs.Compile.Agreement
import SchemaScribe.Proofs.Compile.Bindings
import SchemaScribe.Proofs.Compile.Buckets
import SchemaScribe.Proofs.Compile.Built
import SchemaScribe.Proofs.Compile.Containment
import SchemaScribe.Proofs.Compile.Decoding
import SchemaScribe.Proofs.Compile.Failure
import SchemaScribe.Proofs.Compile.Files
import SchemaScribe.Proofs.Compile.Flaws
import SchemaScribe.Proofs.Compile.ForeignKeys
import SchemaScribe.Proofs.Compile.ImportBlock
import SchemaScribe.Proofs.Compile.Imports
import SchemaScribe.Proofs.Compile.Members
import SchemaScribe.Proofs.Compile.Models
import SchemaScribe.Proofs.Compile.Order
import SchemaScribe.Proofs.Compile.Outline
import SchemaScribe.Proofs.Compile.Pairs
import SchemaScribe.Proofs.Compile.Relocation
import SchemaScribe.Proofs.Compile.Run
import SchemaScribe.Proofs.Compile.Saved
import SchemaScribe.Proofs.Compile.Styles
import SchemaScribe.Proofs.Compile.Validity
import SchemaScribe.Proofs.FileSystem.Atomic
import SchemaScribe.Proofs.FileSystem.Directories
import SchemaScribe.Proofs.FileSystem.Existing
import SchemaScribe.Proofs.FileSystem.InPlace
import SchemaScribe.Proofs.FileSystem.Volume
import SchemaScribe.Proofs.FileSystem.Writing
import SchemaScribe.Proofs.Json.Equations
import SchemaScribe.Proofs.Json.Limits
import SchemaScribe.Proofs.Json.LineEnds
import SchemaScribe.Proofs.Json.Unified
import SchemaScribe.Proofs.Layout.FileName
import SchemaScribe.Proofs.Layout.Resolution
import SchemaScribe.Proofs.Layout.Specifiers
import SchemaScribe.Proofs.Model.Chain
import SchemaScribe.Proofs.Model.Cycles
import SchemaScribe.Proofs.Model.Decoder
import SchemaScribe.Proofs.Model.Field
import SchemaScribe.Proofs.Model.FieldNames
import SchemaScribe.Proofs.Model.Literal
import SchemaScribe.Proofs.Model.Transparency
import SchemaScribe.Proofs.Model.Walk
import SchemaScribe.Proofs.Occurrence
import SchemaScribe.Proofs.Options.Reading
import SchemaScribe.Proofs.Path.Descent
import SchemaScribe.Proofs.Path.Normal
import SchemaScribe.Proofs.Path.Places
import SchemaScribe.Proofs.Path.Words
import SchemaScribe.Proofs.Rule.Rendering
import SchemaScribe.Proofs.Rule.Wording
import SchemaScribe.Proofs.Schema.Flags
import SchemaScribe.Proofs.Schema.Grammar
import SchemaScribe.Proofs.Schema.Growth
import SchemaScribe.Proofs.Schema.Reading
import SchemaScribe.Proofs.Schema.References
import SchemaScribe.Proofs.Schema.Refusals
import SchemaScribe.Proofs.Schema.RoundTrip
import SchemaScribe.Proofs.Schema.Spellings
import SchemaScribe.Proofs.Source.Escapes
import SchemaScribe.Proofs.Source.SameText
import SchemaScribe.Proofs.Success
import SchemaScribe.Proofs.Template.Names
import SchemaScribe.Proofs.Template.Spelling
import SchemaScribe.Proofs.Template.Values
import SchemaScribe.Proofs.Text.LineEnds
import SchemaScribe.Proofs.Text.Split
import SchemaScribe.Rule.Basic
import SchemaScribe.Rule.Strings
import SchemaScribe.Schema.Basic
import SchemaScribe.Schema.Reader
import SchemaScribe.Schema.SqlType
import SchemaScribe.Source.Host
import SchemaScribe.Source.Load
import SchemaScribe.Source.Url
import SchemaScribe.Template
import SchemaScribe.Text.Basic
import SchemaScribe.Text.DecimalDigit
import SchemaScribe.Text.Digits
import SchemaScribe.Text.Joined
import SchemaScribe.Text.Lines
import SchemaScribe.Text.Printable
import SchemaScribe.Text.Quoted
import SchemaScribe.Text.Similarity
import SchemaScribe.Text.Terminal
import SchemaScribe.Text.Utf8
import SchemaScribe.Workspace
