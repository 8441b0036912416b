import BuildPool.Pool.Basic

/-!
# Scheduling

A pass goes through the queued builds in their order, as long as a slot is free somewhere, and gives
each to the preferred worker that can run it. Builds that nobody can run now are set aside and go
back to their places afterwards. An assignment is delivered later, and its delivery counts only if
the build still waits for it.
-/

namespace BuildPool

open BuildPool.Time

/-- A build bound to a slot, to be delivered to its worker. -/
structure Assignment where
  build : BuildId
  worker : WorkerId
  attempt : Nat
  address : String
  task : Task
deriving DecidableEq, Repr

/-! ## Placing one build -/

/-- What a pass does with an entry of the queue. -/
inductive Placement
  | assigned (a : Assignment)
  | deferred
  | dropped
deriving DecidableEq, Repr

/-- Ledger and roster in the course of a pass, with what was done so far. -/
structure Passing where
  ledger : Ledger
  roster : Roster
  assignments : List Assignment := []
  deferred : List Entry := []

namespace Passing

/-- Binds a build to a worker that has a slot for it, in the roster and in the ledger. -/
def bind (s : Passing) (e : Entry) (w : Worker) (now : Instant) (timeout : UInt64) :
    Placement × Passing :=
  match s.roster.reserve w.id e.build with
  | .error _ => (.deferred, s)
  | .ok roster =>
    match s.ledger.assign e.build w.id now with
    | .ok (b, ledger) =>
      (.assigned ⟨b.id, w.id, b.attempt, w.info.address, b.toTask timeout⟩,
        { s with ledger, roster })
    | .error _ =>
      match roster.release w.id e.build with
      | .ok roster => (.dropped, { s with roster })
      | .error _ => (.dropped, { s with roster })

def place (s : Passing) (e : Entry) (now : Instant) (timeout : UInt64) : Placement × Passing :=
  match s.ledger.find? e.build with
  | none => (.dropped, s)
  | some b =>
    match s.roster.select b.task with
    | none => (.deferred, s)
    | some w => s.bind e w now timeout

def step (s : Passing) (e : Entry) (now : Instant) (timeout : UInt64) : Passing :=
  match s.place e now timeout with
  | (.assigned a, s) => { s with assignments := s.assignments ++ [a] }
  | (.deferred, s) => { s with deferred := s.deferred ++ [e] }
  | (.dropped, s) => s

/-- Takes entries off the queue while a slot is free. Every step takes at least one. -/
def run (now : Instant) (timeout : UInt64) : Nat → Passing → Passing
  | 0, s => s
  | fuel + 1, s =>
    if s.roster.hasFreeSlot then
      match s.ledger.popQueued with
      | (none, ledger) => { s with ledger }
      | (some e, ledger) => run now timeout fuel ({ s with ledger }.step e now timeout)
    else s

end Passing

/-! ## Passes -/

/-- What a pass assigned, and how many builds still wait. -/
structure Pass where
  assignments : List Assignment
  queued : Nat
deriving DecidableEq, Repr

namespace Pool

/-- Gives as many queued builds to workers as can be placed now. -/
def pass (p : Pool) (now : Instant) : Pass × Pool :=
  let s := Passing.run now p.config.buildTimeout p.ledger.backlog.size ⟨p.ledger, p.roster, [], []⟩
  let ledger := s.deferred.foldl Ledger.pushBack s.ledger
  (⟨s.assignments, ledger.queuedCount⟩, { p with ledger, roster := s.roster })

/-! ## Deliveries -/

/-- The worker took the build: it runs, if it still waits for this delivery. -/
def delivered (p : Pool) (now : Instant) (a : Assignment) : Pool :=
  match p.ledger.acknowledge? a.build a.worker a.attempt with
  | none => p
  | some ledger => { p with ledger }.publish (.buildStarted a.build a.worker a.task.task now)

/-- The worker could not be reached: the build is queued again and the slot free, if the build still
waits for this delivery. The scheduler is woken some time later, in any case. -/
def undelivered (p : Pool) (a : Assignment) : Pool :=
  match p.ledger.rollback? a.build a.worker a.attempt with
  | none => p
  | some ledger => { p with ledger }.free a.worker a.build

end Pool

end BuildPool
