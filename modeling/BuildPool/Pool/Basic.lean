import BuildPool.CacheKey
import BuildPool.Config
import BuildPool.Event
import BuildPool.Ledger.Basic
import BuildPool.Roster

/-!
# The pool

The pool ties the ledger and the roster together. An operation takes the time at which it happens,
answers, and gives the pool after it. What the operation sets going beside its answer is kept in the
pool: events for the monitor, calls to the artifact cache and to workers, one wake-up for the
scheduler and one request for a snapshot. Repeated wake-ups are one wake-up until it is taken, and
so are repeated requests.
-/

namespace BuildPool

open BuildPool.Time

/-- A call that an operation starts and does not wait for. -/
inductive Call
  /-- Asks the cache for the artifacts of a build that was queued. -/
  | lookUp (build : BuildId) (key : String)
  /-- Gives the cache the artifacts of a build that was completed. -/
  | store (key : String) (artifacts : List String) (metadata : Dictionary)
  /-- Tells a worker to stop working on a build. -/
  | abandon (address : String) (build : BuildId)
deriving DecidableEq, Repr

structure Pool where
  config : Config
  ledger : Ledger
  roster : Roster
  /-- Whether there is an artifact cache. -/
  caching : Bool := false
  /-- How many build ids were given out. -/
  issued : Nat := 0
  /-- A wake-up for the scheduler that was not taken yet. -/
  wakeUp : Bool := false
  /-- A request for a snapshot that was not taken yet. -/
  saveRequest : Bool := false
  journal : List Event := []
  calls : List Call := []

namespace Pool

def empty (config : Config) : Pool where
  config
  ledger := .empty config.maxRetries config.retainedHistory
  roster := .empty

def publish (p : Pool) (e : Event) : Pool := { p with journal := p.journal ++ [e] }

def start (p : Pool) (c : Call) : Pool := { p with calls := p.calls ++ [c] }

/-- Tells the scheduler that there may be something to assign. -/
def wake (p : Pool) : Pool := { p with wakeUp := true }

def save (p : Pool) : Pool := { p with saveRequest := true }

/-- Frees the slot that a worker kept for a build. -/
def free (p : Pool) (w : WorkerId) (b : BuildId) : Pool :=
  match p.roster.release w b with
  | .ok roster => { p with roster }
  | .error _ => p

end Pool

end BuildPool
