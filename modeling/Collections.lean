import Collections.Diagnostics.Environment
import Collections.Proofs.Diagnostics.Lines
import Collections.Proofs.Runs.Growth
import Collections.Proofs.Runs.MembershipSets
import Collections.Proofs.Runs.Retrying
import Collections.Proofs.Runs.SetReentrance
import Collections.Proofs.Runs.Shuffling
import Collections.Proofs.Runs.Sorting
import Collections.Proofs.Runs.Traversing
import Collections.Proofs.Sequence.Refinement
import Collections.Script.Run
import Collections.Proofs.OrderlyHeaps
import Collections.Proofs.Diagnostics.Agreement
import Collections.Proofs.Diagnostics.Flatness
import Collections.Proofs.Diagnostics.Output
import Collections.Proofs.Runs.Dependence
import Collections.Proofs.Runs.Inheriting
import Collections.Proofs.OrderedSet.Disorder
import Collections.Proofs.OrderedSet.Halving
import Collections.Proofs.Runs.Retention
