import Memberwise.Copy.Transform
import Memberwise.Constraint.Rule.Further
import Memberwise.Inspect
import Memberwise.Scenario.Basic
import Memberwise.Session.Definitions
import Memberwise.Proofs.Building
import Memberwise.Proofs.Distinct
import Memberwise.Proofs.Lineage
import Memberwise.Proofs.Subtyping
import Memberwise.Proofs.Answers
import Memberwise.Proofs.Merging
import Memberwise.Proofs.Listing
import Memberwise.Proofs.Copying
import Memberwise.Proofs.Leaves
import Memberwise.Proofs.Reports
import Memberwise.Proofs.Verdicts
import Memberwise.Proofs.Findings
import Memberwise.Proofs.Refinement
import Memberwise.Proofs.Levels
import Memberwise.Proofs.Construction
import Memberwise.Proofs.Failures
import Memberwise.Proofs.Walks
import Memberwise.Proofs.Positions
import Memberwise.Proofs.Assignability
import Memberwise.Proofs.Caching
import Memberwise.Proofs.Operations
import Memberwise.Proofs.Effects
import Memberwise.Proofs.Confinement
import Memberwise.Proofs.RoundTrips
import Memberwise.Proofs.NormalForms
import Memberwise.Proofs.Renumbering
import Memberwise.Proofs.Selecting
import Memberwise.Proofs.Placements
import Memberwise.Proofs.Separation
import Memberwise.Proofs.Filtering
import Memberwise.Proofs.Interchange
import Memberwise.Proofs.Typing
import Memberwise.Proofs.TypedRuns
import Memberwise.Proofs.Contexts
import Memberwise.Proofs.Precedence
import Memberwise.Proofs.Limits
import Memberwise.Proofs.Resolving
import Memberwise.Proofs.Contents
import Memberwise.Proofs.Assignments
import Memberwise.Proofs.Storage
import Memberwise.Proofs.Transfer
import Memberwise.Proofs.Filling
import Memberwise.Proofs.Pairing
import Memberwise.Proofs.Returning
import Memberwise.Proofs.Conjunctions
import Memberwise.Proofs.Cuts
import Memberwise.Proofs.Depths
import Memberwise.Proofs.Views
import Memberwise.Proofs.Contributors
import Memberwise.Proofs.Guards
import Memberwise.Proofs.Instances
import Memberwise.Proofs.Nulls
import Memberwise.Proofs.Sequences
import Memberwise.Proofs.Redeclaring
import Memberwise.Proofs.Sameness
import Memberwise.Proofs.Cursors
import Memberwise.Proofs.Bounds
