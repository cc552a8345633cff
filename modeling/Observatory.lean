import Observatory.Catalog.Basic
import Observatory.Catalog.Document
import Observatory.Catalog.Store
import Observatory.Collection.Order
import Observatory.Collection.SortedMap
import Observatory.Collection.SortedSet
import Observatory.CommandLine.Answer
import Observatory.CommandLine.Arguments
import Observatory.Document.Basic
import Observatory.Document.Json
import Observatory.Document.Yaml.Reader
import Observatory.Document.Yaml.Scalar
import Observatory.Error
import Observatory.Main
import Observatory.Model.Dataset
import Observatory.Model.Dimension
import Observatory.Model.Entity
import Observatory.Model.Observation
import Observatory.Model.Options
import Observatory.Number.Binary64
import Observatory.Number.Decimal
import Observatory.Number.Shortest
import Observatory.Number.Text
import Observatory.Query.Column
import Observatory.Query.Composition
import Observatory.Query.Display
import Observatory.Query.Predicate
import Observatory.Query.Request
import Observatory.Query.Restriction
import Observatory.Query.ValueSet
import Observatory.Service.Config
import Observatory.Service.Hierarchy
import Observatory.Service.Operations
import Observatory.Service.Output
import Observatory.Space.Document
import Observatory.Space.Envelope
import Observatory.Space.Geometry
import Observatory.Text.Blank
import Observatory.Text.Case
import Observatory.Text.CodePoint
import Observatory.Text.Items
import Observatory.Text.Numeral
import Observatory.Time.Document
import Observatory.Time.Instant
import Observatory.Time.Interval
import Observatory.Time.Printer
import Observatory.Time.Reader
import Observatory.Value.Conversion
import Observatory.Value.NoData
import Observatory.Value.Output
import Observatory.Value.Registry
import Observatory.Value.TypeKey
import Observatory.Proofs.Collection.SortedSet
import Observatory.Proofs.Query.Binding
import Observatory.Proofs.Catalog.Subqueries
import Observatory.Proofs.Outcomes
import Observatory.Proofs.Query.Restriction
import Observatory.Proofs.Query.Folding
import Observatory.Proofs.Catalog.References
import Observatory.Proofs.Catalog.Search
import Observatory.Proofs.Catalog.Reachability
import Observatory.Proofs.Catalog.Hidden
import Observatory.Proofs.Service.Hiding
import Observatory.Proofs.Service.Labels
import Observatory.Proofs.Service.Ancestors
import Observatory.Proofs.Service.Platforms
import Observatory.Proofs.Value.Resolution
import Observatory.Proofs.Service.Data
import Observatory.Proofs.Service.Extras
import Observatory.Proofs.Number.Binary64
import Observatory.Proofs.Number.Shortest
import Observatory.Proofs.Number.Decimal
import Observatory.Proofs.Number.Rounding
import Observatory.Proofs.Service.Agreement
import Observatory.Proofs.Catalog.Identifiers
import Observatory.Proofs.Value.Sentinels
import Observatory.Proofs.Value.Parameters
import Observatory.Proofs.Value.Profiles
import Observatory.Proofs.Value.Options
import Observatory.Proofs.Collection.SortedMap
import Observatory.Proofs.Document.Fields
import Observatory.Proofs.Time.Stored
import Observatory.Proofs.Space.Document
import Observatory.Proofs.Space.Segments
import Observatory.Proofs.Space.Lines
import Observatory.Proofs.Space.Rings
import Observatory.Proofs.Space.Polygons
import Observatory.Proofs.Model.Documents
import Observatory.Proofs.Query.Parameters
import Observatory.Proofs.Number.Nearest
import Observatory.Proofs.Number.Scientific
import Observatory.Proofs.Number.Reading
import Observatory.Proofs.Text.Items
import Observatory.Proofs.Space.Envelope
import Observatory.Proofs.Time.Interval
import Observatory.Proofs.Text.Spelling
import Observatory.Proofs.Value.TypeKey
import Observatory.Proofs.Query.Literals
import Observatory.Proofs.Service.Listing
import Observatory.Proofs.Service.Lists
