import BlockFsck.Main
import BlockFsck.Polling
import BlockFsck.Proofs.Checker.Agreement
import BlockFsck.Proofs.Checker.Convergence
import BlockFsck.Proofs.Checker.Effect
import BlockFsck.Proofs.Checker.Malformed
import BlockFsck.Proofs.Checker.Verdict
import BlockFsck.Proofs.Namespace.Ownership
import BlockFsck.Proofs.Remote.Equivalence
import BlockFsck.Remote.Transport
import BlockFsck.Scenario.Amounts
import BlockFsck.Scenario.Record
import BlockFsck.Scenario.Step
import BlockFsck.Text.Lines
import BlockFsck.Proofs.Namespace.PathMap
import BlockFsck.Proofs.Namespace.Refusal
import BlockFsck.Proofs.Checker.Conduct
import BlockFsck.Proofs.Checker.Account
import BlockFsck.Proofs.Checker.ListAccount
import BlockFsck.Proofs.Checker.Contested
import BlockFsck.Proofs.Relocation
import BlockFsck.Proofs.Checker.Interleaved
import BlockFsck.Proofs.Checker.Monotone
import BlockFsck.Proofs.Checker.Perturbation
import BlockFsck.Proofs.Remote.Loss
import BlockFsck.Proofs.Report.Balance
import BlockFsck.Proofs.Config.Loading
import BlockFsck.Proofs.Remote.FailStop
import BlockFsck.Proofs.Checker.Wording
import BlockFsck.Proofs.Listing.Exact
import BlockFsck.Proofs.Listing.Index
import BlockFsck.Proofs.Quarantine.Atomic
import BlockFsck.Proofs.Scenario
import BlockFsck.Proofs.Stack
import BlockFsck.Proofs.Namespace.OneTree
import BlockFsck.Proofs.Namespace.Growth
import BlockFsck.Proofs.Checker.WellCut
import BlockFsck.Proofs.Namespace.Placement
import BlockFsck.Proofs.Number
import BlockFsck.Proofs.Polling
import BlockFsck.Proofs.Remote.Repetition
import BlockFsck.Proofs.Command.Arguments
import BlockFsck.Proofs.Report.Average
import BlockFsck.Proofs.Amount
import BlockFsck.Proofs.Path.Text
import BlockFsck.Proofs.Log.Isolation
import BlockFsck.Proofs.Config.Saving
