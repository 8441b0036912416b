import BuildPool.Pool.Liveness
import BuildPool.Pool.Recovery
import BuildPool.Pool.Schedule
import BuildPool.Snapshot.File
import BuildPool.Startup.Settings
import BuildPool.Startup.SocketAddress

/-!
# Start and stop

A pool starts from its configuration and the snapshot file, and leaves a snapshot when it stops.
-/

namespace BuildPool.Startup

open BuildPool.CommandLine BuildPool.Time

inductive Failure
  | badArguments (c : Complaint)
  | badAddress
  | badSnapshot (f : Snapshot.LoadFailure)
deriving DecidableEq, Repr

def Failure.kind? : Failure → Option String
  | badArguments _ => none
  | badAddress => some "AddrParseError"
  | badSnapshot .unreadable => some "Io"
  | badSnapshot (.undecodable _) => some "Serialization"
  | badSnapshot (.unsupportedVersion _) => some "UnsupportedVersion"

def Failure.code : Failure → Nat
  | badArguments (.inquiry _) => 0
  | badArguments _ => 2
  | badAddress => 1
  | badSnapshot _ => 1

/-- The pool that a snapshot file makes. Without a file it is empty. The supply of ids goes on where
the builds of the file end. -/
def openPool (config : Config) (file : Snapshot.FileEntry) (now : Instant) :
    Except Failure Pool := do
  let found ← if config.statePath.isSome then (Snapshot.load file).mapError .badSnapshot
    else pure none
  let pool := match found with
    | some s => (Pool.recover config s now).2
    | none => Pool.empty config
  return { pool with
    caching := config.cacheUrl.isSome, issued := pool.ledger.nextSequence - 1 }

/-- Starts a pool. The address is looked at first, and then the file. -/
def start (config : Config) (file : Snapshot.FileEntry) (now : Instant) : Except Failure Pool :=
  if isSocketAddress config.bindAddress then openPool config file now else .error .badAddress

/-- What a pool does right after its start: the scheduler makes a pass, and the heartbeats are
looked at. -/
def firstActs (p : Pool) (now : Instant) : Pool := ((p.pass now).2.scan now now).2

/-- The snapshot that a pool leaves if it is stopped right after its start; none if there is no file
for it. -/
def startAndStop (args : List String) (environment : String → Option String)
    (file : Snapshot.FileEntry) (now : Instant) : Except Failure (Option Snapshot) := do
  let config ← (readConfig args environment).mapError .badArguments
  let pool ← start config file now
  return if config.statePath.isSome then some ((firstActs pool now).capture now) else none

end BuildPool.Startup
