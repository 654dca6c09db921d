import CsdPool.Theory.Table
import CsdPool.Theory.Machine
import CsdPool.Theory.Watch
import CsdPool.Theory.Lines
import CsdPool.Theory.Marks
import CsdPool.Theory.Transaction
import CsdPool.Theory.Precedence
import CsdPool.Theory.Apportion
import CsdPool.Theory.Assignment
import CsdPool.Theory.Passes
import CsdPool.Theory.Positional
import CsdPool.Theory.BigEndian
import CsdPool.Theory.Decimal
import CsdPool.Theory.Csv
import CsdPool.Theory.Binary64
import CsdPool.Theory.Sha256
import CsdPool.Allocation
import CsdPool.TargetArithmetic
import CsdPool.Drafts
import CsdPool.Amounts
import CsdPool.Exports
import CsdPool.Db.Locking
import CsdPool.Payout.Approval
import CsdPool.Payout.Closing
import CsdPool.Payout.DoublePayment
import CsdPool.Payout.InFlight
import CsdPool.Payout.Caps
import CsdPool.Payout.TrackedTxid
import CsdPool.Payout.SignedOutputs
import CsdPool.Rewards.Projection
import CsdPool.Rewards.LifeCycle
import CsdPool.Rewards.Settlement
import CsdPool.Rewards.Reorg
import CsdPool.Rewards.Confirmation
import CsdPool.Rewards.ExactMoney
import CsdPool.Rewards.Isolation
import CsdPool.Bridge.Fencing
import CsdPool.Bridge.CleanJobs
import CsdPool.Bridge.FramesRead
import CsdPool.Bridge.Delivery
import CsdPool.Bridge.AtMostOnce
import CsdPool.Bridge.InitialStatus
import CsdPool.Bridge.CreditedWork
import CsdPool.Bridge.Duplicates
import CsdPool.Bridge.NetworkSolution
import CsdPool.Bridge.CandidateRow
import CsdPool.Bridge.WorkerNames
import CsdPool.Bridge.NodeTips
import CsdPool.Bridge.Protocol
import CsdPool.Bridge.LatencyAccounts
import CsdPool.Bridge.Abuse
import CsdPool.Bridge.VardiffExact
import CsdPool.Bridge.Grace
import CsdPool.Bridge.MaterialFetch
import CsdPool.Bridge.Dialogue
import CsdPool.Alerts.Convergence
import CsdPool.Relay.Acknowledgement
import CsdPool.Relay.ReceiptMatrix
import CsdPool.Memory.Refinement
import CsdPool.Adapter.ShownBlock
import CsdPool.Adapter.JobCache
import CsdPool.Adapter.Chain
import CsdPool.Adapter.DeliveryBooks
import CsdPool.NonceSearch
import CsdPool.Rewards.Solvency
import CsdPool.Payout.SigningRequests
import CsdPool.Bridge.OpenGates
import CsdPool.Db.Migrations
