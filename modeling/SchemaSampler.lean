import SchemaSampler.Main
import SchemaSampler.Proofs.Draw.Rules
import SchemaSampler.Proofs.Draw.Generators
import SchemaSampler.Proofs.Compile.Objects
import SchemaSampler.Proofs.Compile.Slots
import SchemaSampler.Proofs.Compile.Checked
import SchemaSampler.Proofs.Compile.KeySets
import SchemaSampler.Proofs.Compile.UnusedDefinitions
import SchemaSampler.Proofs.Draw.Recursion
import SchemaSampler.Proofs.Draw.Drawn
import SchemaSampler.Proofs.Draw.Defects
import SchemaSampler.Proofs.Draw.WindingDown
import SchemaSampler.Proofs.Hoist.FixedPoints
import SchemaSampler.Proofs.Hoist.KeyChoice
import SchemaSampler.Proofs.Hoist.NoSyntheticKeys
import SchemaSampler.Proofs.Hoist.Records
import SchemaSampler.Proofs.Validity.Negations
import SchemaSampler.Proofs.Validity.Soundness
import SchemaSampler.Proofs.Binary64.Order
import SchemaSampler.Proofs.Hoist.PatternProperties
import SchemaSampler.Proofs.Hoist.Dependencies
import SchemaSampler.Proofs.Hoist.Repetition
import SchemaSampler.Proofs.Schema.Alternatives
import SchemaSampler.Proofs.Compile.Faults
import SchemaSampler.Proofs.CommandLine.Validation
import SchemaSampler.Proofs.Validity.Members
import SchemaSampler.Proofs.Hoist.DynamicKeys
import SchemaSampler.Proofs.Draw.UniqueItems
import SchemaSampler.Proofs.Draw.Multiples
import SchemaSampler.Proofs.Ranges.Integers
import SchemaSampler.Proofs.Ranges.Numbers
import SchemaSampler.Proofs.Ranges.LargeBounds
import SchemaSampler.Proofs.Schema.Normalized
import SchemaSampler.Proofs.Schema.Positions
import SchemaSampler.Proofs.Pattern.Anchors
import SchemaSampler.Proofs.Compile.BinderRuns
import SchemaSampler.Proofs.Schema.AbsentKeywords
import SchemaSampler.Proofs.Catalog
import SchemaSampler.Proofs.Compile.EscapedPointers
import SchemaSampler.Proofs.Compile.ReferenceFree
import SchemaSampler.Proofs.Draw.Arbitrary
import SchemaSampler.Proofs.Binary64.Midpoints
import SchemaSampler.Proofs.Binary64.Fractions
import SchemaSampler.Proofs.Draw.SteppedIntegers
