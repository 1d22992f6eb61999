import SqlAssembly.Assoc.Basic
import SqlAssembly.Assoc.Lemmas
import SqlAssembly.Clause.Containing
import SqlAssembly.Clause.Predicate
import SqlAssembly.Clause.Rule
import SqlAssembly.Datum.Basic
import SqlAssembly.Datum.Inspect
import SqlAssembly.Datum.Instant
import SqlAssembly.Fault
import SqlAssembly.GraphQL.Document
import SqlAssembly.GraphQL.Expansion
import SqlAssembly.GraphQL.Reader
import SqlAssembly.GraphQL.Token
import SqlAssembly.Json.Basic
import SqlAssembly.Json.Printer
import SqlAssembly.Json.Reader
import SqlAssembly.Json.Source
import SqlAssembly.Listing.Basic
import SqlAssembly.Listing.Page
import SqlAssembly.Listing.Prepared
import SqlAssembly.Listing.RowCount
import SqlAssembly.Model.Basic
import SqlAssembly.Model.Select
import SqlAssembly.Numeric.Binary
import SqlAssembly.Numeric.Fixed
import SqlAssembly.Numeric.Shortest
import SqlAssembly.Numeric.Style
import SqlAssembly.Request.Basic
import SqlAssembly.Request.Items
import SqlAssembly.Request.Selection
import SqlAssembly.Session.Client
import SqlAssembly.Session.Script
import SqlAssembly.Session.Server
import SqlAssembly.Sql.Lexeme
import SqlAssembly.Sql.Statement
import SqlAssembly.Text.Scrub
import SqlAssembly.Trace
import SqlAssembly.Unicode.Word
import SqlAssembly.Unicode.Hidden
import SqlAssembly.Wire.Encode
import SqlAssembly.Wire.Type
import SqlAssembly.Proofs.Clause.Filtering
import SqlAssembly.Proofs.Clause.Joining
import SqlAssembly.Proofs.Clause.Masking
import SqlAssembly.Proofs.Clause.Matching
import SqlAssembly.Proofs.Clause.Merging
import SqlAssembly.Proofs.Clause.Rendering
import SqlAssembly.Proofs.Datum.Equality
import SqlAssembly.Proofs.Firsts
import SqlAssembly.Proofs.GraphQL.Expansion
import SqlAssembly.Proofs.Listing.Annotation
import SqlAssembly.Proofs.Listing.Counting
import SqlAssembly.Proofs.Listing.Filters
import SqlAssembly.Proofs.Listing.Masking
import SqlAssembly.Proofs.Listing.Ordering
import SqlAssembly.Proofs.Listing.Preparation
import SqlAssembly.Proofs.Model.Closure
import SqlAssembly.Proofs.Model.Conflict
import SqlAssembly.Proofs.Model.Effective
import SqlAssembly.Proofs.Model.Emission
import SqlAssembly.Proofs.Model.Emitted
import SqlAssembly.Proofs.Model.Masking
import SqlAssembly.Proofs.Model.Parts
import SqlAssembly.Proofs.Model.Typename
import SqlAssembly.Proofs.Outcome
import SqlAssembly.Proofs.Request.Building
import SqlAssembly.Proofs.Request.Envelope
import SqlAssembly.Proofs.Request.Merging
import SqlAssembly.Proofs.Request.Paths
import SqlAssembly.Proofs.Request.Selecting
import SqlAssembly.Proofs.Sql.Boundary
import SqlAssembly.Proofs.Sql.Comments
import SqlAssembly.Proofs.Sql.Composition
import SqlAssembly.Proofs.Sql.Extension
import SqlAssembly.Proofs.Sql.Grammar
import SqlAssembly.Proofs.Sql.Nesting
import SqlAssembly.Proofs.Sql.Numbering
import SqlAssembly.Proofs.Sql.Reading
import SqlAssembly.Proofs.Sql.Renaming
import SqlAssembly.Proofs.Sql.Respelling
import SqlAssembly.Proofs.Sql.Spans
import SqlAssembly.Proofs.Sql.Stability
import SqlAssembly.Proofs.Text.Lines
import SqlAssembly.Proofs.Text.Runs
import SqlAssembly.Proofs.Text.Scrubbing
import SqlAssembly.Proofs.Wire.Octets
import SqlAssembly.Proofs.Wire.Received
import SqlAssembly.Proofs.Wire.Integers
import SqlAssembly.Proofs.Wire.Writing
import SqlAssembly.Proofs.Assoc.Order
import SqlAssembly.Proofs.Clause.Splitting
import SqlAssembly.Proofs.Datum.RoundTrip
import SqlAssembly.Proofs.Request.Flattening
import SqlAssembly.Proofs.Model.Building
import SqlAssembly.Proofs.Model.Aliases
import SqlAssembly.Proofs.Sql.Scanning
