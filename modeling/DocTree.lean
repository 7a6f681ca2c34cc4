import DocTree.Main
import DocTree.Engine
import DocTree.Traversal.Search
import DocTree.Traversal.Visit
import DocTree.Proofs.Json.Canonical
import DocTree.Proofs.Migration.Moves
import DocTree.Proofs.Migration.Steps
import DocTree.Proofs.Migration.Upgrade
import DocTree.Proofs.Migration.Validity
import DocTree.Proofs.Registry.Reachable
import DocTree.Proofs.Node.Object
import DocTree.Proofs.Node.Places
import DocTree.Proofs.Validation.Rules
import DocTree.Proofs.Validation.Acceptance
import DocTree.Proofs.Validation.Report
import DocTree.Proofs.Validation.Sites
import DocTree.Proofs.Validation.WellFormed
import DocTree.Proofs.Schema.Evolution
import DocTree.Proofs.Registry.History
import DocTree.Proofs.Validation.Origins
import DocTree.Proofs.Validation.Evolution
import DocTree.Proofs.Validation.Forms
import DocTree.Proofs.Validation.Isolation
import DocTree.Proofs.Validation.Opacity
import DocTree.Proofs.Validation.Registration
import DocTree.Proofs.Migration.Demotion
import DocTree.Proofs.Migration.Inverse
import DocTree.Proofs.Migration.Chains
import DocTree.Proofs.Migration.Ranges
import DocTree.Proofs.Migration.Paths
import DocTree.Proofs.Registry.Skipping
import DocTree.Proofs.Traversal.Calls
import DocTree.Proofs.Traversal.Order
import DocTree.Proofs.Traversal.Rebuild
import DocTree.Proofs.Traversal.BottomUp
import DocTree.Proofs.Traversal.Stopping
import DocTree.Proofs.Traversal.Entering
import DocTree.Proofs.Traversal.Probes
import DocTree.Proofs.Traversal.Searches
import DocTree.Proofs.Traversal.Visits
import DocTree.Proofs.Migration.Downgrade
import DocTree.Proofs.Validation.Leniency
import DocTree.Proofs.Json.Collected
import DocTree.Proofs.Node.Written
import DocTree.Proofs.Traversal.Hereditary
import DocTree.Proofs.Node.Obtainable
import DocTree.Proofs.Json.Nesting
import DocTree.Proofs.Json.Rounding
import DocTree.Proofs.Validation.Nesting
import DocTree.Proofs.Node.Heads
import DocTree.Proofs.Migration.Conflicts
import DocTree.Proofs.Migration.Gathering
import DocTree.Proofs.Migration.Recovery
import DocTree.Proofs.Migration.Unions
import DocTree.Proofs.Migration.Commuting
import DocTree.Proofs.Migration.Derivation
import DocTree.Proofs.Migration.Shortfall
import DocTree.Proofs.Validation.Shedding
import DocTree.Proofs.Validation.Addresses
import DocTree.Proofs.Registry.Confluence
import DocTree.Proofs.Validation.Absences
import DocTree.Proofs.Validation.Reads
import DocTree.Proofs.CommandLine.Checking
import DocTree.Proofs.Schema.RoundTrip
import DocTree.Proofs.Text.Parts
import DocTree.Proofs.CommandLine.Mappings
import DocTree.Proofs.CommandLine.Locations
