import BuildPool.Worker.Basic

/-!
# The roster

All workers that registered, with the builds they hold. The roster reserves and frees slots; it does
not know what a build is doing.
-/

namespace BuildPool

open BuildPool.Time

structure Roster where
  workers : Catalog Worker Worker.key
deriving DecidableEq

/-- Workers by status, and slots. Only workers that are online count for the capacity. -/
structure WorkerCounts where
  total : Nat := 0
  available : Nat := 0
  busy : Nat := 0
  offline : Nat := 0
  capacity : Nat := 0
  activeBuilds : Nat := 0
deriving DecidableEq, Repr

namespace Roster

def empty : Roster := ⟨Catalog.empty⟩

def find? (r : Roster) (id : WorkerId) : Option Worker := r.workers.find? id.text

def require (r : Roster) (id : WorkerId) : Except Refusal Worker :=
  match r.find? id with
  | some w => .ok w
  | none => .error (.unknownWorker id)

def list (r : Roster) : List Worker := r.workers.toList

def size (r : Roster) : Nat := r.workers.size

def put (r : Roster) (w : Worker) : Roster := ⟨r.workers.insert w⟩

/-! ## Registration and heartbeats -/

/-- Adds a worker. Ids are not given out twice. -/
def register (r : Roster) (info : WorkerInfo) (now : Instant) :
    Except Refusal (Worker × Roster) := do
  info.validate
  if (r.find? info.id).isSome then .error (.duplicateWorker info.id)
  else
    let w := Worker.ofInfo info now
    return (w, r.put w)

/-- Notes a heartbeat, and says whether the worker was offline before. -/
def heartbeat (r : Roster) (id : WorkerId) (usage : Usage) (now : Instant) :
    Except Refusal (Bool × Roster) := do
  let w ← r.require id
  let w := { w with lastHeartbeat := now, usage }
  if w.isOnline then return (false, r.put w)
  else return (true, r.put { w with status := .available }.refresh)

/-! ## Slots -/

def hasFreeSlot (r : Roster) : Bool := r.workers.toList.any Worker.hasFreeSlot

/-- The worker that is preferred to all others of a list. -/
def best : List Worker → Option Worker
  | [] => none
  | w :: rest => some (rest.foldl (fun best w => if w.preferred best then w else best) w)

def candidates (r : Roster) (task : String) : List Worker :=
  r.workers.toList.filter fun w => w.hasFreeSlot && w.info.supports task

/-- The worker that gets the next build with this task. -/
def select (r : Roster) (task : String) : Option Worker := best (r.candidates task)

def reserve (r : Roster) (id : WorkerId) (b : BuildId) : Except Refusal Roster := do
  let w ← r.require id
  if w.hasFreeSlot then return r.put (w.take b)
  else .error (.capacityExceeded id w.info.capacity)

/-- Frees the slot of a build. A worker that does not hold the build stays as it is. -/
def release (r : Roster) (id : WorkerId) (b : BuildId) : Except Refusal Roster := do
  let w ← r.require id
  return r.put (w.release b)

/-! ## Lost workers -/

/-- Marks a worker offline and hands back the builds that it held. -/
def disconnect (r : Roster) (id : WorkerId) : Except Refusal (List BuildId × Roster) := do
  let w ← r.require id
  return (w.active.toList, r.put w.disconnect)

/-- The online workers that have been silent for longer than a number of nanoseconds, by id. -/
def stale (r : Roster) (now : Instant) (timeout : Int) : List WorkerId :=
  (r.workers.toList.filter fun w => w.isOnline && timeout < now.since w.lastHeartbeat).map Worker.id

/-! ## Figures -/

def countOf (r : Roster) (status : WorkerStatus) : Nat :=
  r.workers.toList.countP (·.status == status)

/-- A figure of the workers, added up. -/
def total (r : Roster) (figure : Worker → Nat) : Nat :=
  r.workers.toList.foldr (fun w n => figure w + n) 0

def counts (r : Roster) : WorkerCounts where
  total := r.size
  available := r.countOf .available
  busy := r.countOf .busy
  offline := r.countOf .offline
  capacity := r.total fun w => if w.isOnline then w.capacity else 0
  activeBuilds := r.total Worker.load

/-! ## Restarts -/

/-- The roster of recorded workers. None of them is known to be there until its next heartbeat. -/
def ofRecords (workers : List Worker) : Roster :=
  ⟨Catalog.ofList (workers.map Worker.disconnect)⟩

end Roster

end BuildPool
