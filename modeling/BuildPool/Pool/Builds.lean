import BuildPool.Pool.Basic

/-!
# Operations on builds

What clients ask of the pool, and what workers report to it.
-/

namespace BuildPool

open BuildPool.Time

namespace Pool

/-! ## Clients -/

/-- Queues a build under a given id and wakes the scheduler. If the cache may have the build, it is
asked. -/
def submitAs (p : Pool) (now : Instant) (r : Request) (id : BuildId) :
    Except Refusal (Build × Pool) := do
  let (b, ledger) ← p.ledger.submit r id now
  let p := { p with ledger, issued := p.issued + 1 }
  let p := if b.cacheEnabled && p.caching then p.start (.lookUp b.id b.cacheKey) else p
  return (b, p.wake)

/-- Queues a build under the next id of the supply. -/
def submit (p : Pool) (now : Instant) (r : Request) : Except Refusal (Build × Pool) :=
  p.submitAs now r (BuildId.nth (p.issued + 1))

def status (p : Pool) (id : BuildId) : Except Refusal Build := p.ledger.require id

def defaultListLimit : Nat := 100

def list (p : Pool) (status : Option BuildStatus) (limit : Option Nat) : List Build :=
  p.ledger.list status (limit.getD defaultListLimit)

/-- The news that a build was cancelled, to the monitor and to the worker that held it. -/
def announceCancellation (p : Pool) (now : Instant) (id : BuildId) (released : Option WorkerId) :
    Pool :=
  let p := (p.publish (.buildFinished id .cancelled 0 (some cancelledReason) now)).save
  match released with
  | none => p
  | some w =>
    match p.roster.find? w with
    | none => p.wake
    | some worker => p.wake.start (.abandon worker.info.address id)

/-- Cancels a build, frees its slot and tells the worker. Nothing happens to a build that ended. -/
def cancel (p : Pool) (now : Instant) (id : BuildId) : Except Refusal (Cancellation × Pool) := do
  let (answer, ledger) ← p.ledger.cancel id now
  if answer.changed then
    let p := { p with ledger }
    let p := match answer.released with
      | some w => p.free w id
      | none => p
    return (answer, p.announceCancellation now id answer.released)
  else return (answer, p)

/-! ## Workers -/

/-- Notes the progress of a build. The first sign of life of an assigned build starts it. The answer
is whether the worker holds the build. -/
def progress (p : Pool) (now : Instant) (id : BuildId) (w : WorkerId) (amount : Float) :
    Except Refusal (Bool × Pool) := do
  if amount.isFinite then
    let wasAssigned := (p.ledger.find? id).any (·.status == .assigned)
    match ← p.ledger.progress id w amount with
    | none => return (false, p)
    | some ledger =>
      let p := { p with ledger }
      match wasAssigned, ledger.find? id with
      | true, some b => return (true, p.publish (.buildStarted id w b.task now))
      | _, _ => return (true, p)
  else .error (.invalidRequest "progress must be a number")

/-- What the cache is told about the artifacts of a build. -/
def cacheMetadata (b : Build) (o : Outcome) : Dictionary :=
  Catalog.ofList [("build_id", b.id.text), ("project", b.project), ("task", b.task),
    ("duration_ms", toString o.duration)]

def announceCompletion (p : Pool) (now : Instant) (b : Build) : Pool :=
  let o := b.outcome.getD { success := false }
  let p := ((p.publish (.buildFinished b.id b.status o.duration o.error now)).save).wake
  if b.cacheEnabled && b.status == .completed && p.caching then
    p.start (.store b.cacheKey o.artifacts (cacheMetadata b o))
  else p

/-- Ends a build as its worker reports and frees the slot. The answer is whether the worker held the
build. -/
def complete (p : Pool) (now : Instant) (id : BuildId) (r : Report) :
    Except Refusal (Bool × Pool) := do
  match ← p.ledger.complete id r now with
  | none => return (false, p)
  | some ledger =>
    let p := { p with ledger }.free r.worker id
    match ledger.find? id with
    | none => return (false, p)
    | some b => return (true, p.announceCompletion now b)

/-! ## The cache -/

/-- The cache has the artifacts of a build: it ends the build if no worker got it yet. -/
def satisfy (p : Pool) (now : Instant) (id : BuildId) (artifacts : List String) : Bool × Pool :=
  match p.ledger.satisfy? id artifacts now with
  | none => (false, p)
  | some ledger =>
    (true, ({ p with ledger }.publish (.buildFinished id .completed 0 none now)).save)

end Pool

end BuildPool
