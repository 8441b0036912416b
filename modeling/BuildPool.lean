import BuildPool.Client.Cache
import BuildPool.Client.Monitor
import BuildPool.Client.Worker
import BuildPool.CommandLine.Run
import BuildPool.Main
import BuildPool.Monitor.Forwarder
import BuildPool.Proofs.Backlog.Drain
import BuildPool.Proofs.Pool.Attempts
import BuildPool.Proofs.Pool.Queue
import BuildPool.Proofs.Pool.Restarts
import BuildPool.Proofs.Pool.Scheduler
import BuildPool.Proofs.Pool.Slots
import BuildPool.Proofs.Ledger.Balance
import BuildPool.Proofs.Pool.Books
import BuildPool.Proofs.Ledger.Losses
import BuildPool.Proofs.Pool.Scans
import BuildPool.Proofs.Pool.Stages
import BuildPool.Proofs.Pool.Retries
import BuildPool.Proofs.Pool.RetryLimits
import BuildPool.Proofs.Ledger.Milestones
import BuildPool.Proofs.Ledger.Chronicle
import BuildPool.Proofs.Pool.Milestones
import BuildPool.Proofs.Pool.Notices
import BuildPool.Proofs.Pool.Journal
import BuildPool.Proofs.Pool.Shape
import BuildPool.Proofs.Pool.Recent
import BuildPool.Proofs.Pool.Repeats
import BuildPool.Proofs.Pool.Snapshotter
import BuildPool.Proofs.Pool.Frame
import BuildPool.Proofs.Pool.Demotions
import BuildPool.Proofs.Roster.Preference
import BuildPool.Proofs.Pool.Recovery
import BuildPool.Proofs.Api.Refusals
import BuildPool.Proofs.Ledger.Moves
import BuildPool.Proofs.Pool.Retention
import BuildPool.Proofs.CacheKey
import BuildPool.Proofs.Pool.Calls
import BuildPool.Proofs.Json.Documents
import BuildPool.Proofs.Json.Records
import BuildPool.Proofs.Pool.Captured
import BuildPool.Proofs.Wire.Tolerance
import BuildPool.Proofs.Snapshot.Saving
import BuildPool.Proofs.CommandLine.Agreement
import BuildPool.Proofs.Backlog.Service
import BuildPool.Proofs.Monitor.Delivery
import BuildPool.Proofs.Roster.Coherence
import BuildPool.Proofs.Ledger.Orders
import BuildPool.Proofs.Pool.Orders
