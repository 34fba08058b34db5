import PipingAssembly.Main
import PipingAssembly.Proofs.Results
import PipingAssembly.Proofs.Exchange.Spelling
import PipingAssembly.Proofs.Exchange.Segments
import PipingAssembly.Proofs.Exchange.Occurrences
import PipingAssembly.Proofs.Solver.Links
import PipingAssembly.Proofs.Solver.Passes
import PipingAssembly.Proofs.Solver.Origins
import PipingAssembly.Proofs.Solver.Completeness
import PipingAssembly.Proofs.Solver.Solution
import PipingAssembly.Proofs.Solver.Warnings
import PipingAssembly.Proofs.Solver.Trails
import PipingAssembly.Proofs.Solver.Reach
import PipingAssembly.Proofs.Fasteners.Choices
import PipingAssembly.Proofs.Fasteners.Connections
import PipingAssembly.Proofs.Decimal.Numerals
import PipingAssembly.Proofs.Matching.Numbering
import PipingAssembly.Proofs.Run.Ids
import PipingAssembly.Proofs.Json.Numbers
import PipingAssembly.Proofs.Json.Strings
import PipingAssembly.Proofs.Json.Values
import PipingAssembly.Proofs.Json.Fields
import PipingAssembly.Proofs.Store.Records
import PipingAssembly.Proofs.Store.Tables
import PipingAssembly.Proofs.Files.Paths
import PipingAssembly.Proofs.Files.Trees
import PipingAssembly.Proofs.Store.Sources
import PipingAssembly.Proofs.Store.History
import PipingAssembly.Proofs.Store.Fingerprints
import PipingAssembly.Proofs.Yaml.Readings
import PipingAssembly.Proofs.Schema.Acceptance
import PipingAssembly.Proofs.Schema.Parts
import PipingAssembly.Proofs.Schema.Rules
import PipingAssembly.Proofs.Schema.Documents
import PipingAssembly.Proofs.Files.Places
import PipingAssembly.Proofs.Project.Validation
import PipingAssembly.Proofs.Matching.Direction
import PipingAssembly.Proofs.Arithmetic.Floats
import PipingAssembly.Proofs.Matching.Neighbours
import PipingAssembly.Proofs.Solver.Base
import PipingAssembly.Proofs.Solver.Chains
import PipingAssembly.Proofs.Run.Outcome
import PipingAssembly.Proofs.Run.Direction
import PipingAssembly.Proofs.Run.Lookups
import PipingAssembly.Proofs.Exchange.Statements
import PipingAssembly.Proofs.Run.Sequence
import PipingAssembly.Proofs.Matching.Symmetry
import PipingAssembly.Proofs.Exchange.Lexing
import PipingAssembly.Proofs.Exchange.Texts
import PipingAssembly.Proofs.Run.Accounting
import PipingAssembly.Proofs.Run.Route
import PipingAssembly.Proofs.Matching.Priority
import PipingAssembly.Proofs.Value.RoundTrip
import PipingAssembly.Proofs.Run.Loading
import PipingAssembly.Proofs.Scene.References
import PipingAssembly.Proofs.Solver.Failure
import PipingAssembly.Proofs.Solver.Reversal
import PipingAssembly.Proofs.Run.Exports
import PipingAssembly.Proofs.Run.Shapes
import PipingAssembly.Proofs.Exchange.Placements
import PipingAssembly.Proofs.Exchange.Coordinates
import PipingAssembly.Proofs.Exchange.Gaps
import PipingAssembly.Proofs.Yaml.Records
import PipingAssembly.Proofs.Text.Encoding
import PipingAssembly.Proofs.Import.Written
import PipingAssembly.Proofs.Value.Given
import PipingAssembly.Proofs.Config.Layers
import PipingAssembly.Proofs.Files.Growth
import PipingAssembly.Proofs.Project.Setup
import PipingAssembly.Proofs.Delimited.Prefixes
import PipingAssembly.Proofs.Import.Advance
import PipingAssembly.Proofs.Import.Outcome
import PipingAssembly.Proofs.Table.Records
import PipingAssembly.Proofs.Schema.Spans
import PipingAssembly.Proofs.Project.Repeats
import PipingAssembly.Proofs.Fasteners.Placed
import PipingAssembly.Proofs.Solver.Bounds
import PipingAssembly.Proofs.Geometry.Motions
import PipingAssembly.Proofs.Fasteners.Circle
import PipingAssembly.Proofs.Yaml.Data
import PipingAssembly.Proofs.Schema.Violations
import PipingAssembly.Proofs.Import.Validity
