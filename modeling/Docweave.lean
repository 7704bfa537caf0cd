import Docweave.Cache
import Docweave.CommandLine.Arguments
import Docweave.CommandLine.Log
import Docweave.CommandLine.Program
import Docweave.CommandLine.Switch
import Docweave.Conformance.Category
import Docweave.Conformance.Suite
import Docweave.Conformance.Summary
import Docweave.Conformance.TestFile
import Docweave.Conformance.TestRun
import Docweave.Digest.Sha256
import Docweave.Directive
import Docweave.Failure
import Docweave.Files.Path
import Docweave.Files.Tree
import Docweave.Loader
import Docweave.Main
import Docweave.Model.Directives
import Docweave.Model.Eval
import Docweave.Model.Interpreter
import Docweave.Model.Options
import Docweave.Model.Session
import Docweave.Notice
import Docweave.ParseError
import Docweave.Path.Basic
import Docweave.Path.Parser
import Docweave.Path.Select
import Docweave.Path.TopDown
import Docweave.Proofs.CommandLine.RunSwitches
import Docweave.Proofs.CommandLine.Shorthand
import Docweave.Proofs.Conformance.Fences
import Docweave.Proofs.Conformance.Requests
import Docweave.Proofs.Conformance.Selected
import Docweave.Proofs.Files.Gathered
import Docweave.Proofs.Files.Walk
import Docweave.Proofs.Gives
import Docweave.Proofs.Model.Agree
import Docweave.Proofs.Model.Ancestors
import Docweave.Proofs.Model.AtRest
import Docweave.Proofs.Model.Brackets
import Docweave.Proofs.Model.Copied
import Docweave.Proofs.Model.Course
import Docweave.Proofs.Model.Effect
import Docweave.Proofs.Model.Essence
import Docweave.Proofs.Model.Failures
import Docweave.Proofs.Model.Levels
import Docweave.Proofs.Model.Nesting
import Docweave.Proofs.Model.Parallel
import Docweave.Proofs.Model.Persistent
import Docweave.Proofs.Model.QueryPaths
import Docweave.Proofs.Model.Replay
import Docweave.Proofs.Model.Reset
import Docweave.Proofs.Model.Scenes
import Docweave.Proofs.Model.Scopes
import Docweave.Proofs.Model.SortScripts
import Docweave.Proofs.Model.Sources
import Docweave.Proofs.Model.Splice
import Docweave.Proofs.Model.Trace
import Docweave.Proofs.Model.Transform
import Docweave.Proofs.Path.Bracketed
import Docweave.Proofs.Path.DocumentOrder
import Docweave.Proofs.Path.FinalSlash
import Docweave.Proofs.Path.Joined
import Docweave.Proofs.Path.Meaning
import Docweave.Proofs.Path.NameTests
import Docweave.Proofs.Path.Namespaced
import Docweave.Proofs.Path.PredicateForms
import Docweave.Proofs.Path.Segments
import Docweave.Proofs.Path.Starts
import Docweave.Proofs.Path.Steps
import Docweave.Proofs.Records.StableSort
import Docweave.Proofs.Script.Calls
import Docweave.Proofs.Script.Changes
import Docweave.Proofs.Script.Checked
import Docweave.Proofs.Script.Compiled
import Docweave.Proofs.Script.Markup
import Docweave.Proofs.Script.OneLine
import Docweave.Proofs.Script.PathStatements
import Docweave.Proofs.Script.Provenance
import Docweave.Proofs.Script.Sequence
import Docweave.Proofs.Script.SortScript
import Docweave.Proofs.Script.Spans
import Docweave.Proofs.Script.StatementLines
import Docweave.Proofs.Script.Stops
import Docweave.Proofs.Script.TagStatements
import Docweave.Proofs.Script.Tally
import Docweave.Proofs.Script.Template
import Docweave.Proofs.Script.Words
import Docweave.Proofs.Script.Written
import Docweave.Proofs.Text.Counts
import Docweave.Proofs.Text.LineEnds
import Docweave.Proofs.Text.LineStyles
import Docweave.Proofs.Text.Lines
import Docweave.Proofs.Text.Marks
import Docweave.Proofs.Text.Offsets
import Docweave.Proofs.Text.Places
import Docweave.Proofs.Text.Replacement
import Docweave.Proofs.Text.Spaced
import Docweave.Proofs.Toml.Rests
import Docweave.Proofs.Tree.Escaping
import Docweave.Proofs.Tree.LaidOut
import Docweave.Proofs.Tree.Reread
import Docweave.Proofs.Tree.Walk
import Docweave.Proofs.Xml.Content
import Docweave.Proofs.Xml.Delivered
import Docweave.Proofs.Xml.DocumentMarkup
import Docweave.Proofs.Xml.Escaped
import Docweave.Proofs.Xml.LocalName
import Docweave.Proofs.Xml.ReadBack
import Docweave.Proofs.Xml.RoundTrip
import Docweave.Proofs.Xml.StartTags
import Docweave.Proofs.Xml.TagMarkup
import Docweave.Proofs.Xml.WrittenNames
import Docweave.Records.Sort
import Docweave.Report
import Docweave.Script.Basic
import Docweave.Script.Exec
import Docweave.Script.Parser
import Docweave.Script.Problem
import Docweave.Script.Runner
import Docweave.Script.Word
import Docweave.Text.Alphanumeric
import Docweave.Text.Blank
import Docweave.Text.Control
import Docweave.Text.Lowercase
import Docweave.Text.Newline
import Docweave.Text.Number
import Docweave.Text.Position
import Docweave.Text.Quoted
import Docweave.Text.Ranges
import Docweave.Text.Search
import Docweave.Text.Width
import Docweave.Toml.Reader
import Docweave.Toml.Scalar
import Docweave.Toml.Value
import Docweave.Tree.Basic
import Docweave.Tree.Dump
import Docweave.Tree.Escape
import Docweave.Tree.Location
import Docweave.Tree.Printer
import Docweave.Xml.Chars
import Docweave.Xml.Document
import Docweave.Xml.Element
import Docweave.Xml.Fault
import Docweave.Xml.Namespace
import Docweave.Xml.Node
import Docweave.Xml.Reference
import Docweave.Xml.Scan
import Docweave.Xml.Tag
import Docweave.Xml.Token
