import ApiCompiler.Emission.TextEmitter
import ApiCompiler.Main
import ApiCompiler.Proofs.Text.Words
import ApiCompiler.Proofs.Naming.Identifier
import ApiCompiler.Proofs.Derivation.PathTemplate
import ApiCompiler.Proofs.Json.Quoted
import ApiCompiler.Proofs.Script.ReadBack
import ApiCompiler.Proofs.Derivation.Inputs
import ApiCompiler.Proofs.Derivation.Actions
import ApiCompiler.Proofs.Derivation.ActionKeys
import ApiCompiler.Proofs.Derivation.Failures
import ApiCompiler.Proofs.Modules.RequestCall
import ApiCompiler.Proofs.World.Disk
import ApiCompiler.Proofs.World.Steps
import ApiCompiler.Proofs.World.Failing
import ApiCompiler.Proofs.Emission.Taking
import ApiCompiler.Proofs.Emission.Undoing
import ApiCompiler.Proofs.Emission.Reaching
import ApiCompiler.Proofs.Emission.Carrying
import ApiCompiler.Proofs.Emission.Writing
import ApiCompiler.Proofs.Emission.Atomicity
import ApiCompiler.Proofs.Emission.Delivery
import ApiCompiler.Proofs.Location.Hashless
import ApiCompiler.Proofs.Loading.Forest
import ApiCompiler.Proofs.Loading.Search
import ApiCompiler.Proofs.Loading.Cycle
import ApiCompiler.Proofs.Loading.Survey
import ApiCompiler.Proofs.Loading.Exploration
import ApiCompiler.Proofs.Loading.Walk
import ApiCompiler.Proofs.Loading.Termination
import ApiCompiler.Proofs.Loading.Filing
import ApiCompiler.Proofs.Loading.Inlined
import ApiCompiler.Proofs.Loading.Reached
import ApiCompiler.Proofs.Loading.Sharing
import ApiCompiler.Proofs.Loading.Forms
import ApiCompiler.Proofs.Loading.Bareness
import ApiCompiler.Proofs.Loading.Composition
import ApiCompiler.Proofs.Validation.Passing
import ApiCompiler.Proofs.Derivation.WrittenNames
import ApiCompiler.Proofs.Derivation.Flattening
import ApiCompiler.Proofs.Naming.GroupTag
import ApiCompiler.Proofs.Derivation.ConnectionKeys
import ApiCompiler.Proofs.Script.Entries
import ApiCompiler.Proofs.Script.Surface
import ApiCompiler.Proofs.Modules.Bindings
import ApiCompiler.Proofs.Derivation.Interpolation
import ApiCompiler.Proofs.Modules.Linking
import ApiCompiler.Proofs.Modules.IndexNames
import ApiCompiler.Proofs.Loading.Caching
import ApiCompiler.Proofs.Loading.Failing
import ApiCompiler.Proofs.Derivation.Assembling
import ApiCompiler.Proofs.Text.Blank
import ApiCompiler.Proofs.Text.Segments
import ApiCompiler.Proofs.Text.Sentence
import ApiCompiler.Proofs.Text.Template
import ApiCompiler.Proofs.Openapi.ServerAddress
import ApiCompiler.Proofs.Settings.Variables
import ApiCompiler.Proofs.Settings.Expansion
import ApiCompiler.Proofs.Text.Humps
import ApiCompiler.Proofs.Naming.Keeping
import ApiCompiler.Proofs.Json.Values
import ApiCompiler.Proofs.Tree.Latest
import ApiCompiler.Proofs.Derivation.References
import ApiCompiler.Proofs.Derivation.BodyInputs
import ApiCompiler.Proofs.Derivation.Merging
import ApiCompiler.Proofs.Derivation.Derived
import ApiCompiler.Proofs.Script.Literals
import ApiCompiler.Proofs.Script.Lines
import ApiCompiler.Proofs.Modules.InputText
import ApiCompiler.Proofs.Modules.Descriptions
import ApiCompiler.Proofs.Text.Digits
import ApiCompiler.Proofs.Tree.Pointer
import ApiCompiler.Proofs.Loading.Warnings
import ApiCompiler.Proofs.Modules.StrictNames
import ApiCompiler.Proofs.Text.WordForms
import ApiCompiler.Proofs.Text.Numerals
import ApiCompiler.Proofs.Script.Imports
import ApiCompiler.Proofs.Script.Nesting
