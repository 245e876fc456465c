import ValueSchema.Coercion
import ValueSchema.Compatibility
import ValueSchema.Conformance
import ValueSchema.Default
import ValueSchema.Position
import ValueSchema.Settings.Basic
import ValueSchema.Signature
import ValueSchema.TypeDef.Identity
import ValueSchema.TypeDef.Source
import ValueSchema.Version
import ValueSchema.Proofs.Computation
import ValueSchema.Proofs.Record
import ValueSchema.Proofs.Conformance.Equations
import ValueSchema.Proofs.Conformance.Rules
import ValueSchema.Proofs.Comparison
import ValueSchema.Proofs.Antisymmetry
import ValueSchema.Proofs.Coercion.Equations
import ValueSchema.Proofs.Position
import ValueSchema.Proofs.Coercion.Soundness
import ValueSchema.Proofs.Simulation.Basic
import ValueSchema.Proofs.Simulation.Operations
import ValueSchema.Proofs.Expansion
import ValueSchema.Proofs.Conformance.Violations
import ValueSchema.Proofs.Default
import ValueSchema.Proofs.Coercion.Rules
import ValueSchema.Proofs.Coercion.Identity
import ValueSchema.Proofs.Configuration.Basic
import ValueSchema.Proofs.Contract
import ValueSchema.Proofs.Configuration.Failures
import ValueSchema.Proofs.Transitivity
import ValueSchema.Proofs.Simulation.Growth
import ValueSchema.Proofs.Conformance.Equivalence
import ValueSchema.Proofs.Spelling.Basic
import ValueSchema.Proofs.Spelling.Reading
import ValueSchema.Proofs.Signature.Reflexivity
import ValueSchema.Proofs.Signature.Reading
import ValueSchema.Proofs.Reordering.Basic
import ValueSchema.Proofs.Reordering.Operations
import ValueSchema.Proofs.Registry.ByteOrder
import ValueSchema.Proofs.Registry.Runs
import ValueSchema.Proofs.Resolution.Chain
import ValueSchema.Proofs.Coercion.Form
import ValueSchema.Proofs.IntegerOptions
import ValueSchema.Proofs.Registry.Serialization
import ValueSchema.Proofs.Resolution.Cycle
import ValueSchema.Proofs.Conformance.Failures
import ValueSchema.Proofs.Coercion.Positions
import ValueSchema.Proofs.RequiredFields
import ValueSchema.Proofs.Signature.Extent
import ValueSchema.Proofs.Default.Monotonicity
import ValueSchema.Proofs.Default.Positions
