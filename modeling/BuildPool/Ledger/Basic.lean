import BuildPool.Backlog
import BuildPool.Build.Basic
import BuildPool.Number.UnitRange

/-!
# The ledger

The ledger owns every build. It decides which change of a build is allowed:

    queued → assigned → running → completed | failed
    queued → completed                          by the artifact cache
    assigned | running → queued | failed        when the worker is lost
    queued | assigned | running → cancelled

Builds that ended stay for a while: the history lists them in the order in which they ended, and the
oldest leave the ledger once there are more than its limit. A queued build has an entry in the
backlog; an entry of a build that left the queue is dropped when it comes up.
-/

namespace BuildPool

open BuildPool.Text BuildPool.Time BuildPool.Number

/-- What has happened since the pool first started. Eviction does not change it. The counters are
words of 64 bits; as with the counts of a build, none of them is taken to come to its end. -/
structure Counters where
  submitted : Nat := 0
  completed : Nat := 0
  failed : Nat := 0
  cancelled : Nat := 0
  retried : Nat := 0
  cacheHits : Nat := 0
deriving DecidableEq, Repr, Inhabited

/-- Counts a build that ended. -/
def Counters.countEnd (c : Counters) : BuildStatus → Counters
  | .completed => { c with completed := c.completed + 1 }
  | .failed => { c with failed := c.failed + 1 }
  | .cancelled => { c with cancelled := c.cancelled + 1 }
  | .queued | .assigned | .running => c

/-- The builds with their order and their limits. The next sequence number is a word of 64 bits and
the limit of retries one of 32, both of them below their ends. -/
structure Ledger where
  builds : Catalog Build Build.key
  backlog : Backlog
  /-- The builds that ended, the first to end in front. -/
  history : List BuildId
  nextSequence : Nat
  counters : Counters
  /-- How often a build may lose its worker before it fails. -/
  maxRetries : Nat
  historyLimit : Nat

inductive Loss
  | requeued (retries : Nat)
  | failed
  | notHeld
deriving DecidableEq, Repr

/-- The answer to a cancellation: the status after it, the worker that was let go, and whether the
build was still open. -/
structure Cancellation where
  status : BuildStatus
  released : Option WorkerId
  changed : Bool
deriving DecidableEq, Repr

def Build.entry (b : Build) : Entry := ⟨b.id, b.priority, b.sequence⟩

namespace Ledger

def empty (maxRetries historyLimit : Nat) : Ledger where
  builds := Catalog.empty
  backlog := .empty
  history := []
  nextSequence := 1
  counters := {}
  maxRetries
  historyLimit

/-! ## Looking up -/

def find? (l : Ledger) (id : BuildId) : Option Build := l.builds.find? id.text

def require (l : Ledger) (id : BuildId) : Except Refusal Build :=
  match l.find? id with
  | some b => .ok b
  | none => .error (.unknownBuild id)

def bySequence (builds : List Build) : List Build :=
  builds.mergeSort fun a b => a.sequence ≤ b.sequence

/-- The first builds, perhaps only those of one status, in the order of their submission. -/
def list (l : Ledger) (status : Option BuildStatus) (limit : Nat) : List Build :=
  (bySequence (l.builds.toList.filter fun b => status.all (b.status == ·))).take limit

def countOf (l : Ledger) (status : BuildStatus) : Nat :=
  l.builds.toList.countP (·.status == status)

def queuedCount (l : Ledger) : Nat := l.countOf .queued

/-- How many builds are assigned or running. -/
def activeCount (l : Ledger) : Nat := l.countOf .assigned + l.countOf .running

def size (l : Ledger) : Nat := l.builds.size

/-! ## Recording -/

def put (l : Ledger) (b : Build) : Ledger := { l with builds := l.builds.insert b }

def enqueue (l : Ledger) (b : Build) : Ledger :=
  { l with backlog := l.backlog.push b.entry }

/-- Drops the oldest builds of the history beyond the limit. -/
def evict (l : Ledger) : Ledger :=
  let excess := l.history.length - l.historyLimit
  { l with
    history := l.history.drop excess
    builds := (l.history.take excess).foldl (fun builds id => builds.erase id.text) l.builds }

/-- Enters a build that ended. -/
def archive (l : Ledger) (b : Build) : Ledger :=
  evict { l.put b with
    counters := l.counters.countEnd b.status
    history := l.history ++ [b.id] }

/-! ## Submission and queue -/

/-- Checks a request and queues a build for it under a new id. -/
def submit (l : Ledger) (r : Request) (id : BuildId) (now : Instant) :
    Except Refusal (Build × Ledger) := do
  r.validate
  let new := Build.ofRequest r id l.nextSequence now
  let counted : Ledger := { (l.enqueue new) with
    nextSequence := l.nextSequence + 1
    counters := { l.counters with submitted := l.counters.submitted + 1 } }
  match l.find? id with
  | some old => return (old, counted)
  | none => return (new, counted.put new)

def isQueued (l : Ledger) (id : BuildId) : Bool :=
  (l.find? id).any (·.status == .queued)

def popQueued (l : Ledger) : Option Entry × Ledger :=
  let search := l.backlog.popFirst fun e => l.isQueued e.build
  (search.found, { l with backlog := search.rest })

/-- Puts an entry back that was taken off. -/
def pushBack (l : Ledger) (e : Entry) : Ledger := { l with backlog := l.backlog.push e }

/-! ## Assignment -/

def assign (l : Ledger) (id : BuildId) (w : WorkerId) (now : Instant) :
    Except Refusal (Build × Ledger) := do
  let b ← l.require id
  if b.status = .queued then
    let b := b.assignTo w now
    return (b, l.put b)
  else .error (.invalidTransition b.status .assigned)

/-- The worker took the build that one dispatch brought. `none` if the build no longer waits for
that dispatch. -/
def acknowledge? (l : Ledger) (id : BuildId) (w : WorkerId) (attempt : Nat) : Option Ledger :=
  match l.find? id with
  | some b => if b.awaits w attempt then some (l.put b.start) else none
  | none => none

/-- The dispatch failed: the build goes back to its place in the queue. `none` if the build no
longer waits for that dispatch. -/
def rollback? (l : Ledger) (id : BuildId) (w : WorkerId) (attempt : Nat) : Option Ledger :=
  match l.find? id with
  | some b =>
    if b.awaits w attempt then
      let b := b.requeue
      some ((l.put b).enqueue b)
    else none
  | none => none

/-! ## Reports of workers -/

/-- Notes the progress of a build; a build that was only assigned is running then. `none` if the
worker does not hold the build. -/
def progress (l : Ledger) (id : BuildId) (w : WorkerId) (amount : Float) :
    Except Refusal (Option Ledger) := do
  let b ← l.require id
  if b.heldBy w then
    let b := if b.status = .assigned then b.start else b
    return some (l.put { b with progress := clampUnit amount })
  else return none

/-- The status and outcome that a report stands for. A failure always has a reason. -/
def verdict (r : Report) : BuildStatus × Outcome :=
  if r.success then (.completed, ⟨r.success, r.artifacts, none, r.duration⟩)
  else
    let reason := (r.error.filter (!isBlank ·)).getD unexplainedFailure
    (.failed, ⟨r.success, r.artifacts, some reason, r.duration⟩)

/-- Ends a build as the worker that holds it reports. `none` if the worker does not hold it. -/
def complete (l : Ledger) (id : BuildId) (r : Report) (now : Instant) :
    Except Refusal (Option Ledger) := do
  let b ← l.require id
  if b.heldBy r.worker then
    let (status, outcome) := verdict r
    return some (l.archive (b.finish status outcome now))
  else return none

/-! ## Loss, cancellation, cache -/

/-- A worker is gone: its build goes back to the queue, or fails if it did so too often. One more
retry is counted on the assumption that the count has room for it (see `Build`). -/
def lose (l : Ledger) (id : BuildId) (w : WorkerId) (now : Instant) : Loss × Ledger :=
  match l.find? id with
  | some b =>
    if b.heldBy w then
      let retries := b.retries + 1
      if l.maxRetries < retries then
        let b := { b with retries := l.maxRetries }
        (.failed, l.archive (b.finish .failed (Outcome.failure retriesExhausted) now))
      else
        let b := { b with retries }.requeue
        let l := (l.put b).enqueue b
        (.requeued retries,
          { l with counters := { l.counters with retried := l.counters.retried + 1 } })
    else (.notHeld, l)
  | none => (.notHeld, l)

/-- Cancels a build. A build that ended stays as it is. -/
def cancel (l : Ledger) (id : BuildId) (now : Instant) :
    Except Refusal (Cancellation × Ledger) := do
  let b ← l.require id
  if b.isTerminal then return (⟨b.status, none, false⟩, l)
  else
    return (⟨.cancelled, b.worker, true⟩,
      l.archive (b.finish .cancelled (Outcome.failure cancelledReason) now))

/-- Ends a queued build with artifacts of the cache. `none` if the build is not queued. -/
def satisfy? (l : Ledger) (id : BuildId) (artifacts : List String) (now : Instant) :
    Option Ledger :=
  match l.find? id with
  | some b =>
    if b.status = .queued then
      let outcome : Outcome := { success := true, artifacts }
      let counters := { l.counters with cacheHits := l.counters.cacheHits + 1 }
      some ({ l with counters }.archive (b.finish .completed outcome now))
    else none
  | none => none

end Ledger

end BuildPool
