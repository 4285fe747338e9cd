import Nanoservice.Ambient
import Nanoservice.Artifacts
import Nanoservice.Backend.Basic
import Nanoservice.Backend.Encoding
import Nanoservice.Backend.EndpointPath
import Nanoservice.Backend.Issue
import Nanoservice.Backend.Reading
import Nanoservice.Backend.Rule
import Nanoservice.Backend.Shown
import Nanoservice.Candidate
import Nanoservice.CommandLine.Command
import Nanoservice.CommandLine.Help
import Nanoservice.CommandLine.Run
import Nanoservice.CommandLine.Switch
import Nanoservice.Decimal.Double
import Nanoservice.Decimal.Layout
import Nanoservice.Decimal.Shortest
import Nanoservice.Disk.Basic
import Nanoservice.Disk.Fault
import Nanoservice.Disk.Output
import Nanoservice.Disk.Path
import Nanoservice.Generation.Assembly
import Nanoservice.Generation.Completion
import Nanoservice.Generation.Failure
import Nanoservice.Generation.Prompt
import Nanoservice.Generation.Report
import Nanoservice.Http.App
import Nanoservice.Http.Generate
import Nanoservice.Http.Message
import Nanoservice.Job.Basic
import Nanoservice.Job.Registry
import Nanoservice.Job.Run
import Nanoservice.Json.Basic
import Nanoservice.Json.Reader
import Nanoservice.Json.Writer
import Nanoservice.Literal
import Nanoservice.LogRecord
import Nanoservice.Main
import Nanoservice.ModelStore
import Nanoservice.OpenApi.Document
import Nanoservice.OpenApi.Sheet
import Nanoservice.OutputFile
import Nanoservice.Page.BuiltIn
import Nanoservice.Page.Documentation
import Nanoservice.Page.Markup
import Nanoservice.Page.Status
import Nanoservice.Page.Store
import Nanoservice.Page.Template
import Nanoservice.Proofs.Artifacts
import Nanoservice.Proofs.Backend.Finite
import Nanoservice.Proofs.Backend.Normal
import Nanoservice.Proofs.Backend.Parts
import Nanoservice.Proofs.Backend.PathSegments
import Nanoservice.Proofs.Backend.RoundTrip
import Nanoservice.Proofs.Backend.Supported
import Nanoservice.Proofs.Backend.Writable
import Nanoservice.Proofs.Candidate.Accepted
import Nanoservice.Proofs.Candidate.Agreement
import Nanoservice.Proofs.Candidate.Canonical
import Nanoservice.Proofs.Candidate.Checks
import Nanoservice.Proofs.Candidate.Endpoints
import Nanoservice.Proofs.Candidate.Foreign
import Nanoservice.Proofs.CommandLine.Delivery
import Nanoservice.Proofs.Decimal.Rounding
import Nanoservice.Proofs.Decimal.Shortest
import Nanoservice.Proofs.Disk.Change
import Nanoservice.Proofs.Disk.Output
import Nanoservice.Proofs.Disk.Path
import Nanoservice.Proofs.Disk.Room
import Nanoservice.Proofs.Disk.Tree
import Nanoservice.Proofs.EndpointPath
import Nanoservice.Proofs.Generation.Assembly
import Nanoservice.Proofs.Generation.Completion
import Nanoservice.Proofs.Generation.Decoding
import Nanoservice.Proofs.Generation.Exchange
import Nanoservice.Proofs.Generation.Payload
import Nanoservice.Proofs.Generation.Report
import Nanoservice.Proofs.Http.Accounting
import Nanoservice.Proofs.Http.Answers
import Nanoservice.Proofs.Http.Sending
import Nanoservice.Proofs.Http.Session
import Nanoservice.Proofs.Job.Coherence
import Nanoservice.Proofs.Job.Eviction
import Nanoservice.Proofs.Job.Overlap
import Nanoservice.Proofs.Job.Record
import Nanoservice.Proofs.Json.Finite
import Nanoservice.Proofs.Json.Halves
import Nanoservice.Proofs.Json.Induction
import Nanoservice.Proofs.Json.Lines
import Nanoservice.Proofs.Json.Nesting
import Nanoservice.Proofs.Json.Number
import Nanoservice.Proofs.Json.Read
import Nanoservice.Proofs.Json.RoundTrip
import Nanoservice.Proofs.Json.Sendable
import Nanoservice.Proofs.Json.Spelling
import Nanoservice.Proofs.Json.Text
import Nanoservice.Proofs.Literal
import Nanoservice.Proofs.OpenApi.Calls
import Nanoservice.Proofs.OpenApi.Integers
import Nanoservice.Proofs.OpenApi.Operation
import Nanoservice.Proofs.OpenApi.Parameters
import Nanoservice.Proofs.OpenApi.Paths
import Nanoservice.Proofs.OpenApi.RelativePath
import Nanoservice.Proofs.OpenApi.Routes
import Nanoservice.Proofs.OpenApi.Sheet
import Nanoservice.Proofs.Page.Faithful
import Nanoservice.Proofs.Page.Landmarks
import Nanoservice.Proofs.Page.Marks
import Nanoservice.Proofs.Page.Sections
import Nanoservice.Proofs.Page.Whole
import Nanoservice.Proofs.Reading
import Nanoservice.Proofs.Service.Closed
import Nanoservice.Proofs.Service.Collected
import Nanoservice.Proofs.Service.Docstring
import Nanoservice.Proofs.Service.Layout
import Nanoservice.Proofs.Service.Lines
import Nanoservice.Proofs.Service.Name
import Nanoservice.Proofs.Service.NormalForm
import Nanoservice.Proofs.Service.Route
import Nanoservice.Proofs.Service.Serving
import Nanoservice.Proofs.Service.Source
import Nanoservice.Proofs.Service.Statement
import Nanoservice.Proofs.Service.Unique
import Nanoservice.Proofs.Store.Current
import Nanoservice.Proofs.Store.Keeping
import Nanoservice.Proofs.Store.Restart
import Nanoservice.Proofs.Store.Run
import Nanoservice.Proofs.Table
import Nanoservice.Proofs.Text.Digits
import Nanoservice.Proofs.Text.Trim
import Nanoservice.Proofs.Yaml.Chunks
import Nanoservice.Proofs.Yaml.Literals
import Nanoservice.Proofs.Yaml.Loading
import Nanoservice.Proofs.Yaml.Nodes
import Nanoservice.Proofs.Yaml.Plain
import Nanoservice.Proofs.Yaml.Quoted
import Nanoservice.Proofs.Yaml.Scalars
import Nanoservice.Service.Name
import Nanoservice.Service.Route
import Nanoservice.Service.Source
import Nanoservice.Settings
import Nanoservice.Table
import Nanoservice.Text.Blank
import Nanoservice.Text.Case
import Nanoservice.Text.Digit
import Nanoservice.Text.NewLine
import Nanoservice.Text.Numeral
import Nanoservice.Text.Printable
import Nanoservice.Text.Raw
import Nanoservice.Text.Utf8
import Nanoservice.Yaml.Resolution
import Nanoservice.Yaml.Scalar
import Nanoservice.Yaml.Tree
