import Perihelion.Lib.Fallible
import Perihelion.Lib.Transition
import Perihelion.Lib.BigEndian
import Perihelion.Lib.PositionBook
import Perihelion.Escrow.State
import Perihelion.Escrow.Config
import Perihelion.Escrow.Codec
import Perihelion.Escrow.Locking
import Perihelion.Escrow.Machine
import Perihelion.Escrow.Funds
import Perihelion.Escrow.Steps
import Perihelion.Escrow.Solvency
import Perihelion.Escrow.Lifecycle
import Perihelion.Escrow.LockOutcome
import Perihelion.Escrow.Refund
import Perihelion.Lib.Bitmap
import Perihelion.Escrow.Inbound
import Perihelion.Settlement.Address
import Perihelion.Settlement.State
import Perihelion.Settlement.Messages
import Perihelion.Settlement.Admin
import Perihelion.Settlement.Inbound
import Perihelion.Settlement.Fill
import Perihelion.Settlement.Machine
import Perihelion.Settlement.Lifecycle
import Perihelion.Settlement.Steps
import Perihelion.Settlement.Markers
import Perihelion.Settlement.Outbound
import Perihelion.Settlement.Dispatch
import Perihelion.Bridge.Clock
import Perihelion.Escrow.Instructions
import Perihelion.Settlement.Sent
import Perihelion.Bridge.Codec
import Perihelion.Bridge.Machine
import Perihelion.Bridge.Agreement
import Perihelion.Bridge.Repayment
import Perihelion.Lib.ReplayGuard
import Perihelion.Settlement.Nonces
import Perihelion.Bridge.Replay
import Perihelion.Bridge.RoundTrip
import Perihelion.Bridge.Registration
import Perihelion.Lib.Crc
import Perihelion.Sdk.Stellar
import Perihelion.Sdk.Intent
import Perihelion.Bridge.Validated
import Perihelion.Settlement.Combined
import Perihelion.Settlement.Exits
import Perihelion.Relayer.Machine
import Perihelion.Lib.Frontier
import Perihelion.Relayer.Steps
import Perihelion.Relayer.Progress
import Perihelion.Relayer.Coverage
import Perihelion.Relayer.Resolved
import Perihelion.Relayer.Restart
import Perihelion.Relayer.Drain
import Perihelion.Lib.DelayedChange
import Perihelion.Settlement.Governance
import Perihelion.Settlement.Authority
import Perihelion.Lib.RollingWindow
import Perihelion.Settlement.Breaker
import Perihelion.Settlement.WindowCap
import Perihelion.Settlement.Acknowledged
import Perihelion.Escrow.WindowCap
import Perihelion.Lib.Hex
import Perihelion.Relayer.EvmDelivery
import Perihelion.Escrow.Emitted
import Perihelion.Relayer.LockedLog
import Perihelion.Lib.LogWindows
import Perihelion.Relayer.SorobanWatcher
import Perihelion.Relayer.EvmWatcher
import Perihelion.Relayer.TransportNonce
import Perihelion.Lib.Ballot
import Perihelion.Timelock.Operations
import Perihelion.Timelock.Machine
import Perihelion.Timelock.Council
import Perihelion.Timelock.Execution
import Perihelion.Timelock.Clock
import Perihelion.Timelock.Votes
import Perihelion.Timelock.Reproposal
import Perihelion.Escrow.Controls
import Perihelion.Escrow.Pausing
import Perihelion.Sdk.EscrowClient
import Perihelion.Lib.CapWindow
import Perihelion.Escrow.CapIsolation
import Perihelion.Lib.InsertionMap
import Perihelion.Mempool.Store
import Perihelion.Mempool.Server
import Perihelion.Mempool.Finality
import Perihelion.Sdk.Validate
import Perihelion.Sdk.StrkeyAgreement
import Perihelion.Mempool.StoreIndex
import Perihelion.Mempool.Listing
import Perihelion.Mempool.Readable
import Perihelion.Mempool.Pagination
import Perihelion.Lib.DeadlineCache
import Perihelion.SolverNode.Inventory
import Perihelion.SolverNode.Quote
import Perihelion.SolverNode.Tick
import Perihelion.SolverNode.Commitment
import Perihelion.SolverNode.Caches
import Perihelion.SolverNode.Forged
import Perihelion.SolverNode.OneFill
import Perihelion.Lib.Logged
import Perihelion.SolverNode.Executor
import Perihelion.Settlement.Expiry
import Perihelion.Timelock.Readiness
import Perihelion.Settlement.KeeperReward
import Perihelion.Settlement.Refunds
import Perihelion.Settlement.Reset
import Perihelion.Lib.KeysetPages
import Perihelion.Mempool.Walk
import Perihelion.Lib.ScaledFloor
import Perihelion.SolverNode.Registration
import Perihelion.SolverNode.ReleasedWatcher
import Perihelion.Relayer.ForkDepth
import Perihelion.Relayer.Budget
import Perihelion.Relayer.RefundScan
import Perihelion.Lib.Repack
import Perihelion.Settlement.Strkey
import Perihelion.Settlement.Buckets
import Perihelion.Sdk.SameRules
import Perihelion.Sdk.Rounding
import Perihelion.Mempool.Grace
import Perihelion.Settlement.Reputation
import Perihelion.Sdk.Units
import Perihelion.Relayer.Chunks
import Perihelion.Mempool.RateLimit
import Perihelion.SolverNode.LeastRecent
import Perihelion.Escrow.Commissions
import Perihelion.Escrow.Closings
import Perihelion.Bridge.Delivery
import Perihelion.Settlement.Confirmations
import Perihelion.Bridge.Promptness
import Perihelion.Escrow.IntentHash
import Perihelion.Lib.TypedData
import Perihelion.Sdk.Signature
import Perihelion.Timelock.Notice
import Perihelion.Escrow.Policy
import Perihelion.Governance.Machine
import Perihelion.Governance.Notice
import Perihelion.Relayer.SorobanDelivery
import Perihelion.Settlement.Status
import Perihelion.Relayer.Skipped
import Perihelion.Bridge.Relayed
import Perihelion.Lib.Expiry
import Perihelion.Mempool.Admission
import Perihelion.Settlement.Quiet
import Perihelion.Settlement.Lifetimes
import Perihelion.Settlement.Reserve
import Perihelion.Lib.Layout
import Perihelion.Settlement.Canonical
import Perihelion.Lib.Journal
import Perihelion.Escrow.Ledger
import Perihelion.Network.Machine
import Perihelion.Network.Services
import Perihelion.Network.Reports
import Perihelion.Sdk.Client
import Perihelion.Network.Waiting
