import SchemaDocs.Main
import SchemaDocs.Proofs.Text.Split
import SchemaDocs.Proofs.Value.Access
import SchemaDocs.Proofs.Document.ExportScript
import SchemaDocs.Proofs.Html.Entities
import SchemaDocs.Proofs.Html.Layout
import SchemaDocs.Proofs.Html.Content
import SchemaDocs.Proofs.Json.Number
import SchemaDocs.Proofs.Json.StringLiteral
import SchemaDocs.Proofs.Entries
import SchemaDocs.Proofs.Json.RoundTrip
import SchemaDocs.Proofs.Html.ScriptText
import SchemaDocs.Proofs.Json.Tidy
import SchemaDocs.Proofs.Number.Literal
import SchemaDocs.Proofs.Value.Expression
import SchemaDocs.Proofs.Document.Plain
import SchemaDocs.Proofs.Html.EmbeddedRecord
import SchemaDocs.Proofs.FileSystem.SameFiles
import SchemaDocs.Proofs.Run
import SchemaDocs.Proofs.Document.Surrogates
import SchemaDocs.Proofs.DocumentPair
import SchemaDocs.Proofs.CommandLine.FailedRun
import SchemaDocs.Proofs.Schema.Locked
import SchemaDocs.Proofs.Markdown.Lines
import SchemaDocs.Proofs.Markdown.Tables
import SchemaDocs.Proofs.Markdown.Content
import SchemaDocs.Proofs.Path
import SchemaDocs.Proofs.Settings
import SchemaDocs.Proofs.FileSystem.Contents
import SchemaDocs.Proofs.WrittenDocuments
import SchemaDocs.Proofs.CommandLine.SuccessfulRun
import SchemaDocs.Proofs.Document.Rendering
import SchemaDocs.Proofs.Schema.Loaded
import SchemaDocs.Proofs.CommandLine.ReportedRun
import SchemaDocs.Proofs.Document.Shape
import SchemaDocs.Proofs.Html.Markup
import SchemaDocs.Proofs.Html.Navigation
import SchemaDocs.Proofs.FileSystem.Directories
import SchemaDocs.Proofs.FileSystem.Puts
import SchemaDocs.Proofs.WrittenTargets
import SchemaDocs.Proofs.CommandLine.RunStages
import SchemaDocs.Proofs.CommandLine.SparedInputs
import SchemaDocs.Proofs.CommandLine.RepeatedRun
import SchemaDocs.Proofs.CommandLine.RunsInTurn
import SchemaDocs.Proofs.CommandLine.UntouchedRun
import SchemaDocs.Proofs.EntryOrder
import SchemaDocs.Proofs.Value.Reordered
import SchemaDocs.Proofs.Schema.SameContent
import SchemaDocs.Proofs.Document.Reordered
import SchemaDocs.Proofs.Schema.DocumentedContent
import SchemaDocs.Proofs.Text.Utf8RoundTrip
import SchemaDocs.Proofs.Schema.Canonical
import SchemaDocs.Proofs.Schema.Conditions
import SchemaDocs.Proofs.Html.Tags
import SchemaDocs.Proofs.Html.Anchors
import SchemaDocs.Proofs.FileSystem.MadeDirectories
import SchemaDocs.Proofs.FileSystem.Places
import SchemaDocs.Proofs.WriteEffect
import SchemaDocs.Proofs.Schema.Unlocked
import SchemaDocs.Proofs.Document.Unlocked
import SchemaDocs.Proofs.Document.Concatenation
import SchemaDocs.Proofs.Settings.BareNames
import SchemaDocs.Proofs.Settings.Requirements
import SchemaDocs.Proofs.Value.OneAccess
import SchemaDocs.Proofs.FileSystem.Tree
import SchemaDocs.Proofs.SingleDocument
import SchemaDocs.Proofs.RunFailures
import SchemaDocs.Proofs.CommandLine.UnencodableRun
import SchemaDocs.Proofs.FileSystem.OnePlace
import SchemaDocs.Proofs.CommandLine.OverriddenSettings
import SchemaDocs.Proofs.CommandLine.LeftTree
