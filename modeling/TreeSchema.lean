import TreeSchema.Main
import TreeSchema.Session.Step
import TreeSchema.Proofs.CommandLine.Show
import TreeSchema.Proofs.Declarations.Acceptance
import TreeSchema.Proofs.Declarations.Order
import TreeSchema.Proofs.Files.Path
import TreeSchema.Proofs.Files.Snapshot
import TreeSchema.Proofs.Json.Assembly
import TreeSchema.Proofs.Json.ReadBack
import TreeSchema.Proofs.Node.Atomicity
import TreeSchema.Proofs.Node.Completion
import TreeSchema.Proofs.Node.Containment
import TreeSchema.Proofs.Node.Soundness
import TreeSchema.Proofs.Node.Walk
import TreeSchema.Proofs.NodeSchema.Reading
import TreeSchema.Proofs.Reading
import TreeSchema.Proofs.Scene
import TreeSchema.Proofs.ToolConfig.Reload
import TreeSchema.Proofs.Node.History
import TreeSchema.Proofs.Node.Interchange
import TreeSchema.Proofs.Scene.Origin
import TreeSchema.Proofs.Value.Literal
import TreeSchema.Proofs.Registry.Calls
import TreeSchema.Proofs.Value.Domain
import TreeSchema.Proofs.Value.Rendering
import TreeSchema.Proofs.Declarations.Reload
import TreeSchema.Proofs.Registry.Hierarchy
import TreeSchema.Proofs.Declarations.Merging
import TreeSchema.Proofs.Files.AtRest
import TreeSchema.Proofs.Declarations.Places
import TreeSchema.Proofs.Declarations.Fingerprint
import TreeSchema.Proofs.Node.Commuting
import TreeSchema.Proofs.Installation
import TreeSchema.Proofs.CommandLine.Agreement
import TreeSchema.Proofs.CommandLine.TextView
import TreeSchema.Proofs.Declarations.Inertness
import TreeSchema.Proofs.Declarations.Coverage
import TreeSchema.Proofs.Registry.Ancestry
import TreeSchema.Proofs.Registry.Cycle
import TreeSchema.Proofs.Node.Elementwise
import TreeSchema.Proofs.Node.Construction
import TreeSchema.Proofs.Node.Stepwise
import TreeSchema.Proofs.Node.Kept
import TreeSchema.Proofs.Node.Lens
import TreeSchema.Proofs.Node.PathText
import TreeSchema.Proofs.Node.Setting
