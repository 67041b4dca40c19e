import ApiCanon.Batch.Basic
import ApiCanon.Batch.Ledger
import ApiCanon.Batch.Timeline
import ApiCanon.Binary.Basic
import ApiCanon.Binary.Decimal
import ApiCanon.Binary.Shortest
import ApiCanon.Cache.Basic
import ApiCanon.Cache.Entry
import ApiCanon.Cache.Key
import ApiCanon.Cache.Store
import ApiCanon.Cli.Arguments
import ApiCanon.Cli.Host
import ApiCanon.Cli.Program
import ApiCanon.Collection.SortedMap
import ApiCanon.Config.Basic
import ApiCanon.Config.Environment
import ApiCanon.Config.Setting
import ApiCanon.Diff.Difference
import ApiCanon.Diff.Endpoints
import ApiCanon.Diff.Report
import ApiCanon.Diff.Result
import ApiCanon.Diff.Schemas
import ApiCanon.Digest.Sha256
import ApiCanon.DocComment.Reader
import ApiCanon.Error
import ApiCanon.Express.Reader
import ApiCanon.Go.Annotation
import ApiCanon.Go.Grammar
import ApiCanon.Go.Program
import ApiCanon.Go.Reader
import ApiCanon.GraphQl.Definition
import ApiCanon.GraphQl.Reader
import ApiCanon.GraphQl.Token
import ApiCanon.Json.Decode
import ApiCanon.Json.Value
import ApiCanon.Json.Printer
import ApiCanon.Json.Reader
import ApiCanon.Main
import ApiCanon.Model.Ast
import ApiCanon.Model.Decode
import ApiCanon.Model.Encode
import ApiCanon.Model.Endpoint
import ApiCanon.Model.Names
import ApiCanon.Model.Schema
import ApiCanon.OpenApi.Operations
import ApiCanon.OpenApi.Reader
import ApiCanon.OpenApi.Schemas
import ApiCanon.Pipeline.Basic
import ApiCanon.Pipeline.Flights
import ApiCanon.Pipeline.Enhancement
import ApiCanon.Python.Docstring
import ApiCanon.Python.Grammar
import ApiCanon.Python.Lexis
import ApiCanon.Python.Program
import ApiCanon.Python.Reader
import ApiCanon.Python.Route
import ApiCanon.Python.TypeExpr
import ApiCanon.Service.Error
import ApiCanon.Service.Prompt
import ApiCanon.Service.Provider
import ApiCanon.Service.Request
import ApiCanon.Source.Issue
import ApiCanon.Source.Reading
import ApiCanon.Source.Readers
import ApiCanon.Source.Request
import ApiCanon.Source.Route
import ApiCanon.Source.Settings
import ApiCanon.Source.TypeName
import ApiCanon.Syntax.Token
import ApiCanon.Text.Blank
import ApiCanon.Text.Bytes
import ApiCanon.Text.Case
import ApiCanon.Text.CaseTable
import ApiCanon.Text.Literal
import ApiCanon.Text.Search
import ApiCanon.Text.Word
import ApiCanon.Time.Timestamp
import ApiCanon.Toml.Document
import ApiCanon.Toml.Fault
import ApiCanon.Toml.Printer
import ApiCanon.Toml.Scalar
import ApiCanon.Yaml.Cursor
import ApiCanon.Yaml.Document
import ApiCanon.Yaml.Fault
import ApiCanon.Yaml.Node
import ApiCanon.Yaml.Scalar
import ApiCanon.Yaml.Token
import ApiCanon.Proofs.Diff.Differences
import ApiCanon.Proofs.Diff.Parameters
import ApiCanon.Proofs.Json.Documents
import ApiCanon.Proofs.Collection.KeyedList
import ApiCanon.Proofs.Collection.SortedMap
import ApiCanon.Proofs.Diff.Endpoints
import ApiCanon.Proofs.Diff.Schemas
import ApiCanon.Proofs.Diff.Validity
import ApiCanon.Proofs.Diff.Silence
import ApiCanon.Proofs.Json.Bounds
import ApiCanon.Proofs.Json.Numerals
import ApiCanon.Proofs.Text.Utf8
import ApiCanon.Proofs.Cache.Key
import ApiCanon.Proofs.Json.Records
import ApiCanon.Proofs.Model.Encoding
import ApiCanon.Proofs.Cache.Contents
import ApiCanon.Proofs.Json.Reading
import ApiCanon.Proofs.OpenApi.Documents
import ApiCanon.Proofs.Pipeline.Memo
import ApiCanon.Proofs.Cache.Lasting
import ApiCanon.Proofs.Source.Recall
import ApiCanon.Proofs.Pipeline.Flights
import ApiCanon.Proofs.Diff.Reach
import ApiCanon.Proofs.Diff.Changes
import ApiCanon.Proofs.Diff.Narrowing
import ApiCanon.Proofs.Diff.Options
import ApiCanon.Proofs.Diff.Shape
import ApiCanon.Proofs.Batch.Accounts
import ApiCanon.Proofs.Cache.Tiers
import ApiCanon.Proofs.Diff.Admission
import ApiCanon.Proofs.Diff.Releases
import ApiCanon.Proofs.Batch.Aborts
import ApiCanon.Proofs.GraphQl.Definitions
import ApiCanon.Proofs.Text.Search
import ApiCanon.Proofs.Source.Outcomes
import ApiCanon.Proofs.Source.Checks
import ApiCanon.Proofs.Source.References
import ApiCanon.Proofs.GraphQl.Names
import ApiCanon.Proofs.Source.Validity
import ApiCanon.Proofs.Fallible
import ApiCanon.Proofs.Time.Moments
import ApiCanon.Proofs.Model.RoundTrip
import ApiCanon.Proofs.Binary.Rounding
import ApiCanon.Proofs.Binary.Layout
import ApiCanon.Proofs.Json.Texts
import ApiCanon.Proofs.Json.Order
import ApiCanon.Proofs.Cache.Identity
import ApiCanon.Proofs.Time.Instants
import ApiCanon.Proofs.Cache.Rows
import ApiCanon.Proofs.Cache.Backends
import ApiCanon.Proofs.Cache.Expiry
import ApiCanon.Proofs.Cache.Outages
import ApiCanon.Proofs.Pipeline.SingleFlight
import ApiCanon.Proofs.Pipeline.SharedReadings
import ApiCanon.Proofs.Pipeline.Exclusion
import ApiCanon.Proofs.Pipeline.Enhancements
import ApiCanon.Proofs.Pipeline.RepeatedEnhancements
import ApiCanon.Proofs.Batch.Determinacy
import ApiCanon.Proofs.Diff.WrittenTexts
import ApiCanon.Proofs.Source.DraftRuns
import ApiCanon.Proofs.Cache.Statistics
import ApiCanon.Proofs.GraphQl.Tokens
import ApiCanon.Proofs.GraphQl.Concatenation
import ApiCanon.Proofs.GraphQl.Contributions
import ApiCanon.Proofs.GraphQl.RootFields
import ApiCanon.Proofs.GraphQl.Extensions
import ApiCanon.Proofs.GraphQl.TypeReferences
import ApiCanon.Proofs.GraphQl.Texts
import ApiCanon.Proofs.GraphQl.Layout
import ApiCanon.Proofs.GraphQl.Faults
import ApiCanon.Proofs.GraphQl.Lines
import ApiCanon.Proofs.OpenApi.Operations
import ApiCanon.Proofs.OpenApi.Contents
import ApiCanon.Proofs.OpenApi.Parameters
import ApiCanon.Proofs.OpenApi.SharedParameters
import ApiCanon.Proofs.Json.Pointers
import ApiCanon.Proofs.OpenApi.ComposedReferences
import ApiCanon.Proofs.OpenApi.RequiredProperties
import ApiCanon.Proofs.Diff.Rejections
import ApiCanon.Proofs.Diff.Matching
import ApiCanon.Proofs.Source.PathParameters
import ApiCanon.Proofs.Python.Annotations
import ApiCanon.Proofs.Source.TypeNotations
import ApiCanon.Proofs.Service.Answers
import ApiCanon.Proofs.Service.Prompts
import ApiCanon.Proofs.Source.Routes
import ApiCanon.Proofs.Python.Docstrings
import ApiCanon.Proofs.DocComment.ParameterTags
import ApiCanon.Proofs.DocComment.OpenComments
import ApiCanon.Proofs.Model.Groups
import ApiCanon.Proofs.Batch.Identity
import ApiCanon.Proofs.Go.Tags
import ApiCanon.Proofs.Diff.Reports
