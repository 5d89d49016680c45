import NetworkAi.Lib.Checked
import NetworkAi.Lib.Machine
import NetworkAi.Lib.Table
import NetworkAi.Failure
import NetworkAi.Ledger.Projection
import NetworkAi.Document.Js
import NetworkAi.Contracts
import NetworkAi.Control.Identifiers
import NetworkAi.Control.Registry
import NetworkAi.Control.Documents
import NetworkAi.Control.Database
import NetworkAi.Control.Market
import NetworkAi.Control.RouteAvailability
import NetworkAi.Control.Availability
import NetworkAi.Control.Cooperative
import NetworkAi.Control.Sessions
import NetworkAi.Control.Economics
import NetworkAi.Control.Renewals
import NetworkAi.Control.Coordinator
import NetworkAi.Control.Postings
import NetworkAi.Control.RegistryGrowth
import NetworkAi.Control.Moves
import NetworkAi.Control.Frames
import NetworkAi.Control.SessionSteps
import NetworkAi.Control.LeaseSteps
import NetworkAi.Control.SessionMoves
import NetworkAi.Control.LeaseMoves
import NetworkAi.Control.CooperativeMoves
import NetworkAi.Control.RenewalMoves
import NetworkAi.Invariants.Books
import NetworkAi.Invariants.HeldFunds
import NetworkAi.Invariants.Charges
import NetworkAi.Invariants.Participants
import NetworkAi.Invariants.Epochs
import NetworkAi.Invariants.Handshake
import NetworkAi.Invariants.Execution
import NetworkAi.Invariants.Payouts
import NetworkAi.Invariants.NodeLeases
import NetworkAi.Invariants.Expansion
import NetworkAi.Invariants.Caps
import NetworkAi.Lib.Turns
import NetworkAi.Invariants.Fairness
import NetworkAi.Lib.History
import NetworkAi.Invariants.Parties
import NetworkAi.Lib.Streak
import NetworkAi.Control.Clocks
import NetworkAi.Invariants.Recovery
import NetworkAi.Invariants.Coverage
import NetworkAi.Lib.Idempotence
import NetworkAi.Control.Creations
import NetworkAi.Invariants.EffectOnce
import NetworkAi.Lib.Unwinding
import NetworkAi.Invariants.RouteLeases
import NetworkAi.Invariants.Noninterference
import NetworkAi.Lib.Holdings
import NetworkAi.Invariants.Claims
import NetworkAi.Runtime.Sse
import NetworkAi.Runtime.SseChunks
import NetworkAi.Link.Framing
import NetworkAi.Link.Relay
import NetworkAi.Lib.Stateful
import NetworkAi.Rpc.Memory
import NetworkAi.Rpc.Budget
import NetworkAi.Rpc.Observe
import NetworkAi.Rpc.Chunking
import NetworkAi.Rpc.Exchanges
import NetworkAi.Rpc.Transparency
import NetworkAi.Stage.Readiness
import NetworkAi.Stage.Agent
import NetworkAi.Lib.Log
import NetworkAi.Stage.Leasing
import NetworkAi.Stage.Leases
import NetworkAi.Lib.Waterfall
import NetworkAi.Control.Recycling
import NetworkAi.Link.Responses
import NetworkAi.Lib.Retention
import NetworkAi.Control.Signatures
import NetworkAi.Lib.Roster
import NetworkAi.Node.Outbox
import NetworkAi.Node.Agent
import NetworkAi.Node.Moves
import NetworkAi.Node.Slots
import NetworkAi.Node.Orphans
import NetworkAi.Worker.Lock
import NetworkAi.Lib.Dict
import NetworkAi.Benchmark.Ledger
import NetworkAi.Benchmark.Audit
import NetworkAi.Benchmark.Atomicity
import NetworkAi.Ledger.Covered
import NetworkAi.Lib.LockStep
import NetworkAi.Control.Consumptions
import NetworkAi.Benchmark.Pools
import NetworkAi.Benchmark.Simulation
import NetworkAi.Gateway.Completion
import NetworkAi.Invariants.Occupancy
import NetworkAi.Invariants.RouteLeaseBooks
import NetworkAi.Invariants.RouteLeaseRuns
import NetworkAi.Invariants.PoolFunds
import NetworkAi.Invariants.Refunds
import NetworkAi.Invariants.Reserve
import NetworkAi.Invariants.PoolConservation
import NetworkAi.Lib.Packing
import NetworkAi.Control.Capacity
import NetworkAi.Invariants.SpareSlots
import NetworkAi.Invariants.RenewalAuthority
import NetworkAi.Control.Backup
import NetworkAi.Invariants.Bindings
import NetworkAi.Invariants.Verification
import NetworkAi.Invariants.Receipts
import NetworkAi.Invariants.Confluence
import NetworkAi.Lib.Delimited
import NetworkAi.Document.Numbers
import NetworkAi.Document.Strings
import NetworkAi.Document.Canonical
import NetworkAi.Runtime.Events
import NetworkAi.Stage.Freshness
