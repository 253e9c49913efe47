import SchemaLint.Build.Basic
import SchemaLint.Build.Body
import SchemaLint.Command.Arguments
import SchemaLint.Command.Basic
import SchemaLint.Decimal.Double
import SchemaLint.Decimal.Shortest
import SchemaLint.Diagnostics
import SchemaLint.Document.Basic
import SchemaLint.Document.Decode
import SchemaLint.Document.Format
import SchemaLint.Document.Json
import SchemaLint.Document.Yaml.Scalar
import SchemaLint.Document.Yaml.Token
import SchemaLint.Document.Yaml.Tree
import SchemaLint.Files.Basic
import SchemaLint.Files.Loading
import SchemaLint.Files.Tree
import SchemaLint.Fixture.Basic
import SchemaLint.Fixture.Codec
import SchemaLint.Fixture.Lowering
import SchemaLint.Fixture.Plugin
import SchemaLint.Fixture.ValueShape
import SchemaLint.Lint.CallBlacklist
import SchemaLint.Lint.Config
import SchemaLint.Lint.Issue
import SchemaLint.Lint.Registry
import SchemaLint.Lint.Rule
import SchemaLint.Lint.Run
import SchemaLint.Lint.SetCalls
import SchemaLint.Main
import SchemaLint.Program.Calls
import SchemaLint.Program.Codec
import SchemaLint.Program.Listing
import SchemaLint.Program.Naming
import SchemaLint.Program.Package
import SchemaLint.Program.Position
import SchemaLint.Program.Reading
import SchemaLint.Program.Shape
import SchemaLint.Program.Type
import SchemaLint.Program.Unvisited
import SchemaLint.Program.Validity
import SchemaLint.Program.Value
import SchemaLint.Program.Walk
import SchemaLint.Proofs.Alike.Names
import SchemaLint.Proofs.Faultless
import SchemaLint.Proofs.Lint.Blacklist
import SchemaLint.Proofs.Provenance.Root
import SchemaLint.Proofs.Provenance.Trace
import SchemaLint.Proofs.Queries.Calls
import SchemaLint.Proofs.Queries.Providers
import SchemaLint.Proofs.Queries.Rules
import SchemaLint.Proofs.Queries.Safety
import SchemaLint.Proofs.Queries.Stores
import SchemaLint.Proofs.Queries.Types
import SchemaLint.Proofs.Walk.Reach
import SchemaLint.Proofs.Walk.Run
import SchemaLint.Proofs.WellFormed
import SchemaLint.Proofs.Yields
import SchemaLint.Provenance
import SchemaLint.Provider.Codec
import SchemaLint.Provider.ExtractError
import SchemaLint.Provider.Extraction
import SchemaLint.Provider.FieldStore
import SchemaLint.Provider.Model
import SchemaLint.Provider.Name
import SchemaLint.Provider.Schema
import SchemaLint.Provider.SchemaTree
import SchemaLint.Provider.Sdk
import SchemaLint.Text.Blank
import SchemaLint.Text.Hidden
import SchemaLint.Text.Quoted
import SchemaLint.Text.UpperCase
import SchemaLint.Proofs.Extraction.Complete
import SchemaLint.Proofs.Vendoring.Analyses
import SchemaLint.Proofs.Build.Growth
import SchemaLint.Proofs.Build.Operations
import SchemaLint.Proofs.Extraction.Effects
import SchemaLint.Proofs.Fixture.Library
import SchemaLint.Proofs.Fixture.Lowering.Lifecycle
import SchemaLint.Proofs.Build.Segments
import SchemaLint.Proofs.Fixture.Lowering.Attributes
import SchemaLint.Proofs.Fixture.Declared
import SchemaLint.Proofs.Fixture.Reading.Attributes
import SchemaLint.Proofs.Fixture.Lowering.Components
import SchemaLint.Proofs.Build.Functions
import SchemaLint.Proofs.Fixture.Reading.Components
import SchemaLint.Proofs.Fixture.Lowering.Provider
import SchemaLint.Proofs.Fixture.Reading.Provider
import SchemaLint.Proofs.Lint.SetCalls
import SchemaLint.Proofs.Extraction.Shape
import SchemaLint.Proofs.Extraction.Errors
import SchemaLint.Proofs.Alike.Walks
import SchemaLint.Proofs.Alike.Analyses
import SchemaLint.Proofs.Bodies.Neutral
import SchemaLint.Proofs.Rearranged
import SchemaLint.Proofs.Bodies.UpdateOrder
import SchemaLint.Proofs.Codec.Package
import SchemaLint.Proofs.Lint.Restriction
import SchemaLint.Proofs.Extraction.Ambiguity
import SchemaLint.Proofs.Violations
import SchemaLint.Proofs.Build.Numbered
import SchemaLint.Proofs.Build.Session
import SchemaLint.Proofs.Build.Safety
import SchemaLint.Proofs.Build.Finish
import SchemaLint.Proofs.Build.Calls
import SchemaLint.Proofs.Build.Values
import SchemaLint.Proofs.Fixture.Entries
import SchemaLint.Proofs.Fixture.Lowering.Shapes
import SchemaLint.Proofs.Fixture.Lowering.Bodies
import SchemaLint.Proofs.Fixture.Reading.Live
import SchemaLint.Proofs.Fixture.Reading.SetCalls
import SchemaLint.Proofs.Extraction.Search
import SchemaLint.Proofs.Fixture.Reading.Extracted
import SchemaLint.Proofs.Fixture.Verdicts
import SchemaLint.Proofs.Walk.Splice
import SchemaLint.Proofs.Build.Moves
import SchemaLint.Proofs.Build.Interning
import SchemaLint.Proofs.Extraction.ComponentNames
import SchemaLint.Proofs.Provenance.Boxing
import SchemaLint.Proofs.Lint.Registry
import SchemaLint.Proofs.Extraction.Lookup
import SchemaLint.Proofs.Build.Meaning
import SchemaLint.Proofs.Positions
import SchemaLint.Proofs.ProviderNames
import SchemaLint.Proofs.Vendoring.Paths
import SchemaLint.Proofs.Queries.Bounds
