import LayeredConfig.Application
import LayeredConfig.Proofs.Application.Fork
import LayeredConfig.Proofs.Application.Identity
import LayeredConfig.Proofs.Application.Interleaving
import LayeredConfig.Proofs.Application.Program
import LayeredConfig.Proofs.Binding.Override
import LayeredConfig.Proofs.Binding.Record
import LayeredConfig.Proofs.Builder.Load
import LayeredConfig.Proofs.Builder.Steps
import LayeredConfig.Proofs.LayerStack.History
import LayeredConfig.Proofs.LayerStack.Override
import LayeredConfig.Proofs.Resolver.Clean
import LayeredConfig.Proofs.Resolver.Mentions
import LayeredConfig.Proofs.Resolver.Reached
import LayeredConfig.Proofs.Resolver.Reload
import LayeredConfig.Proofs.Section.Application
import LayeredConfig.Proofs.Tree.Without
import LayeredConfig.Proofs.Json.RoundTrip
import LayeredConfig.Proofs.Processing.Removal
import LayeredConfig.Proofs.Tree.PathMerge
import LayeredConfig.Proofs.Tree.Storing
import LayeredConfig.Proofs.Profile.Peeling
import LayeredConfig.Proofs.Processing.Selection
import LayeredConfig.Proofs.Tree.TakingOut
import LayeredConfig.Proofs.Path.Grammar
import LayeredConfig.Proofs.Assoc.Sorted
import LayeredConfig.Proofs.Binding.CommaList
import LayeredConfig.Proofs.Config.Flatten
import LayeredConfig.Proofs.Environment.Names
import LayeredConfig.Proofs.Environment.Tree
import LayeredConfig.Proofs.Binding.Integer
import LayeredConfig.Proofs.Section.Exact
import LayeredConfig.Proofs.Watch.Target
import LayeredConfig.Proofs.Application.Log
import LayeredConfig.Proofs.LayerStack.Absorption
import LayeredConfig.Proofs.Profile.Names
import LayeredConfig.Proofs.Provider.Refinement
