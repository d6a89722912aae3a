import BoundMarkup.Proofs.Compile.Dependency
import BoundMarkup.Proofs.Compile.Failure
import BoundMarkup.Site.Run
import BoundMarkup.Proofs.Compile.Derivation
import BoundMarkup.Proofs.Compile.Outcome
import BoundMarkup.Proofs.Compile.Ledger
import BoundMarkup.Proofs.Compile.Once
import BoundMarkup.Proofs.Compile.Cycles
import BoundMarkup.Proofs.Compile.Terminal
import BoundMarkup.Proofs.Compile.Order
import BoundMarkup.Proofs.Compile.Validity
import BoundMarkup.Proofs.Binding.Yield
import BoundMarkup.Proofs.Binding.TypeArguments
import BoundMarkup.Proofs.Binding.Rounds
import BoundMarkup.Proofs.Binding.Soundness
import BoundMarkup.Proofs.Binding.Lexing
import BoundMarkup.Proofs.Binding.Completeness
import BoundMarkup.Proofs.Number.Reading
import BoundMarkup.Proofs.Binding.RoundTrip
import BoundMarkup.Proofs.Number.Rounding
import BoundMarkup.Proofs.Binding.Emission
import BoundMarkup.Proofs.Binding.Literals
import BoundMarkup.Proofs.Binding.Rendering
import BoundMarkup.Proofs.Term.Arranging
import BoundMarkup.Proofs.Term.VariadicCalls
import BoundMarkup.Proofs.Term.Formation
import BoundMarkup.Proofs.Term.Fitting
import BoundMarkup.Proofs.Term.Resolution
import BoundMarkup.Proofs.Binding.Bound
import BoundMarkup.Proofs.Registry.Reordering
import BoundMarkup.Proofs.Registry.Registration
import BoundMarkup.Proofs.Registry.Search
import BoundMarkup.Proofs.Registry.Swelling
import BoundMarkup.Proofs.Registry.Instances
import BoundMarkup.Proofs.Term.Selection
import BoundMarkup.Proofs.Term.Overloads
import BoundMarkup.Proofs.Registry.Termination
import BoundMarkup.Proofs.Registry.Assignability
import BoundMarkup.Proofs.Registry.Capabilities
import BoundMarkup.Proofs.Registry.Closing
import BoundMarkup.Proofs.Registry.Visibility
import BoundMarkup.Proofs.Registry.Hiding
import BoundMarkup.Proofs.Registry.Receivers
import BoundMarkup.Proofs.Term.Inference
import BoundMarkup.Proofs.Term.GenericTails
import BoundMarkup.Proofs.Term.ExactMatches
import BoundMarkup.Proofs.Term.Conversions
import BoundMarkup.Proofs.Term.Lifting
import BoundMarkup.Proofs.Term.EqualitySymmetry
import BoundMarkup.Proofs.Term.UnusableOperands
import BoundMarkup.Proofs.Term.OperatorOverloads
import BoundMarkup.Proofs.Term.MethodGroups
import BoundMarkup.Proofs.Markup.Passing
import BoundMarkup.Proofs.Markup.Bindings
import BoundMarkup.Proofs.Markup.Nesting
import BoundMarkup.Proofs.Markup.Conservation
import BoundMarkup.Proofs.Source.Positions
import BoundMarkup.Proofs.Binding.Laying
import BoundMarkup.Proofs.Binding.Starts
import BoundMarkup.Proofs.Binding.Faults
import BoundMarkup.Proofs.Markup.Locations
import BoundMarkup.Proofs.Builder.Running
import BoundMarkup.Proofs.Builder.Rebuilding
import BoundMarkup.Proofs.Builder.Linking
import BoundMarkup.Proofs.View.FirstFailure
import BoundMarkup.Proofs.View.Metadata
import BoundMarkup.Proofs.Compile.NodeReports
import BoundMarkup.Proofs.Compile.Placeholders
import BoundMarkup.Proofs.View.Styling
import BoundMarkup.Proofs.Site.Paths
import BoundMarkup.Proofs.View.CodeControls
import BoundMarkup.Proofs.View.DataContexts
import BoundMarkup.Proofs.Markup.Covering
import BoundMarkup.Proofs.Markup.Tiling
import BoundMarkup.Proofs.Binding.Lossless
import BoundMarkup.Proofs.Registry.Nearest
import BoundMarkup.Proofs.Registry.Distances
import BoundMarkup.Proofs.Registry.Applications
import BoundMarkup.Proofs.Binding.Nodes
import BoundMarkup.Proofs.Binding.Regions
