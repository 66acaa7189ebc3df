import TestRepair.Assistant.Endpoint
import TestRepair.Assistant.Reply
import TestRepair.Assistant.Request
import TestRepair.CommandLine.Arguments
import TestRepair.CommandLine.Commands
import TestRepair.CommandLine.Outside
import TestRepair.CommandLine.Usage
import TestRepair.Dictionary
import TestRepair.Failure.Diagnosis
import TestRepair.Failure.Kind
import TestRepair.Failure.Pattern
import TestRepair.Failure.Signatures
import TestRepair.FileTree.Basic
import TestRepair.FileTree.Glob
import TestRepair.FileTree.Replace
import TestRepair.FileTree.Write
import TestRepair.Json.Codec
import TestRepair.Json.Printer
import TestRepair.Json.Reader
import TestRepair.Json.Value
import TestRepair.Locator.AttributeSelector
import TestRepair.Locator.BuilderCall
import TestRepair.Locator.Candidate
import TestRepair.Locator.Failing
import TestRepair.Locator.Keywords
import TestRepair.Locator.Ledger
import TestRepair.Locator.Markup
import TestRepair.Locator.Matching
import TestRepair.Locator.PageRoot
import TestRepair.Locator.Proposal
import TestRepair.Locator.Replacement
import TestRepair.Locator.Suggestion
import TestRepair.Main
import TestRepair.Path
import TestRepair.Proofs.Batch.Copying
import TestRepair.Proofs.Batch.Independence
import TestRepair.Proofs.Batch.Isolation
import TestRepair.Proofs.Dictionary
import TestRepair.Proofs.FileTree.Dots
import TestRepair.Proofs.FileTree.Drafts
import TestRepair.Proofs.FileTree.Growth
import TestRepair.Proofs.FileTree.Lookup
import TestRepair.Proofs.FileTree.PlacePath
import TestRepair.Proofs.FileTree.Ready
import TestRepair.Proofs.FileTree.Searching
import TestRepair.Proofs.FileTree.Shape
import TestRepair.Proofs.FileTree.Spelling
import TestRepair.Proofs.FileTree.Writing
import TestRepair.Proofs.Json.Exchange
import TestRepair.Proofs.Json.Reading
import TestRepair.Proofs.Json.RoundTrip
import TestRepair.Proofs.Json.Scalars
import TestRepair.Proofs.Locator.Layout
import TestRepair.Proofs.Locator.Ledger
import TestRepair.Proofs.Locator.Literals
import TestRepair.Proofs.Locator.Quoting
import TestRepair.Proofs.Locator.Suggesting
import TestRepair.Proofs.Locator.Swapping
import TestRepair.Proofs.Outcome
import TestRepair.Proofs.Repair.Choosing
import TestRepair.Proofs.Repair.Effects
import TestRepair.Proofs.Repair.Reports
import TestRepair.Proofs.Repair.Swapping
import TestRepair.Proofs.Repair.Touching
import TestRepair.Proofs.Script.Importing
import TestRepair.Proofs.Text.Escaping
import TestRepair.Proofs.Text.Replacing
import TestRepair.Proofs.Text.Scanning
import TestRepair.Proofs.Trial.Account
import TestRepair.Proofs.Trial.Changes
import TestRepair.Proofs.Trial.Renewal
import TestRepair.Proofs.Trial.ScriptFile
import TestRepair.Proofs.Trial.Story
import TestRepair.Recording
import TestRepair.Repair.Healing
import TestRepair.Repair.Patch
import TestRepair.Repair.Strategy
import TestRepair.Report
import TestRepair.Runner
import TestRepair.Script.Export
import TestRepair.Script.Import
import TestRepair.Script.MissingClass
import TestRepair.Script.Module
import TestRepair.Settings
import TestRepair.SettingsFile
import TestRepair.Shell.Arithmetic
import TestRepair.Shell.Builtin
import TestRepair.Shell.Command
import TestRepair.Shell.Condition
import TestRepair.Shell.Edit
import TestRepair.Shell.Files
import TestRepair.Shell.Filter
import TestRepair.Shell.Printing
import TestRepair.Shell.Raw
import TestRepair.Shell.Reader
import TestRepair.Shell.Regex
import TestRepair.Shell.Run
import TestRepair.Shell.State
import TestRepair.Shell.Wildcard
import TestRepair.Text.Case
import TestRepair.Text.Cursor
import TestRepair.Text.Decimal
import TestRepair.Text.Letters
import TestRepair.Text.Lines
import TestRepair.Text.Literal
import TestRepair.Text.Printable
import TestRepair.Text.RangeSet
import TestRepair.Text.Search
import TestRepair.Text.Similarity
import TestRepair.Trial.Batch
import TestRepair.Trial.Record
import TestRepair.Trial.Run
import TestRepair.Trial.Skipped
import TestRepair.Trial.Surroundings
import TestRepair.Yaml.Reader
import TestRepair.Yaml.Scalar
import TestRepair.Yaml.Shape
import TestRepair.Yaml.Spot
import TestRepair.Yaml.Value
import TestRepair.Proofs.Script.Reading
import TestRepair.Proofs.Text.Inserting
import TestRepair.Proofs.Text.Rewriting
import TestRepair.Proofs.Script.Endings
import TestRepair.Proofs.Script.Extending
import TestRepair.Proofs.Script.Exports
import TestRepair.Proofs.Script.Exporting
import TestRepair.Proofs.Script.Unexported
import TestRepair.Proofs.Locator.Offering
import TestRepair.Proofs.Failure.Showing
import TestRepair.Proofs.Repair.Exhausting
import TestRepair.Proofs.FileTree.Normalizing
import TestRepair.Proofs.Script.Complaining
import TestRepair.Proofs.Trial.Echoing
import TestRepair.Proofs.Locator.Rebuilding
import TestRepair.Proofs.Locator.Elements
import TestRepair.Proofs.Locator.Exactness
import TestRepair.Proofs.Script.Clauses
import TestRepair.Proofs.Script.Declaring
import TestRepair.Proofs.Trial.Counting
import TestRepair.Proofs.Masking
import TestRepair.Proofs.Locator.Reordering
import TestRepair.Proofs.Batch.Likeness
import TestRepair.Proofs.Locator.Roots
import TestRepair.Proofs.Locator.Undoing
import TestRepair.Proofs.Repair.Gathering
