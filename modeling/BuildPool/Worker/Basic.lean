import BuildPool.Refusal
import BuildPool.Text.Blank
import BuildPool.Time.Instant

/-!
# Workers

A worker declares an address, how many builds it takes at a time, and which tasks it can run. It is
available below its capacity, busy at it, and offline once its heartbeats stop.
-/

namespace BuildPool

open BuildPool.Text BuildPool.Time

inductive WorkerStatus
  | available
  | busy
  | offline
deriving DecidableEq, Repr, Inhabited

namespace WorkerStatus

def name : WorkerStatus → String
  | available => "available"
  | busy => "busy"
  | offline => "offline"

def ofName? : String → Option WorkerStatus
  | "available" => some available
  | "busy" => some busy
  | "offline" => some offline
  | _ => none

theorem ofName?_name (s : WorkerStatus) : ofName? s.name = some s := by cases s <;> rfl

theorem name_of_ofName? {text : String} {s : WorkerStatus} (h : ofName? text = some s) :
    s.name = text := by
  unfold ofName? at h
  split at h <;> cases h <;> rfl

end WorkerStatus

/-- What a worker declares when it registers. -/
structure WorkerInfo where
  id : WorkerId
  address : String
  capacity : UInt32
  /-- The tasks that the worker runs; none listed means any. -/
  capabilities : List String := []
  labels : Dictionary := Catalog.empty
deriving DecidableEq, Repr

/-- The capability that stands for every task. -/
def anyTask : String := "*"

def WorkerInfo.supports (w : WorkerInfo) (task : String) : Bool :=
  w.capabilities.isEmpty || w.capabilities.any fun c => c == task || c == anyTask

/-- A worker needs an id, then an address, then a slot. -/
def WorkerInfo.validate (w : WorkerInfo) : Except Refusal Unit :=
  if isBlank w.id.text then .error (.invalidRequest "worker_id is required")
  else if isBlank w.address then .error (.invalidRequest "address is required")
  else if w.capacity = 0 then .error (.invalidRequest "capacity must be at least 1")
  else .ok ()

/-- The load that a worker reports, as fractions. Nothing depends on it. -/
structure Usage where
  cpu : Float := 0
  memory : Float := 0
deriving DecidableEq

structure Worker where
  info : WorkerInfo
  status : WorkerStatus
  active : BuildIds
  lastHeartbeat : Instant
  registeredAt : Instant
  usage : Usage
deriving DecidableEq

namespace Worker

def id (w : Worker) : WorkerId := w.info.id

def key (w : Worker) : String := w.info.id.text

def ofInfo (info : WorkerInfo) (now : Instant) : Worker where
  info
  status := .available
  active := Catalog.empty
  lastHeartbeat := now
  registeredAt := now
  usage := {}

def load (w : Worker) : Nat := w.active.size

def capacity (w : Worker) : Nat := w.info.capacity.toNat

def isOnline (w : Worker) : Bool := w.status != .offline

def hasFreeSlot (w : Worker) : Bool := w.isOnline && w.load < w.capacity

/-- Brings the status of an online worker in line with its load. -/
def refresh (w : Worker) : Worker :=
  if w.isOnline then
    { w with status := if w.capacity ≤ w.load then .busy else .available }
  else w

/-- Takes a build into a slot. -/
def take (w : Worker) (b : BuildId) : Worker := { w with active := w.active.insert b }.refresh

/-- Frees the slot of a build, if the worker holds it. -/
def release (w : Worker) (b : BuildId) : Worker :=
  { w with active := w.active.erase b.text }.refresh

/-- The worker without contact: it holds nothing any more. -/
def disconnect (w : Worker) : Worker := { w with status := .offline, active := Catalog.empty }

/-! ## Preference -/

/--
Whether the pool gives a build to `a` rather than to `b`: the smaller share of slots in use comes
first, then the later heartbeat, then the smaller id. Shares are compared by cross-multiplication.
-/
def preferred (a b : Worker) : Bool :=
  let left := a.load * b.capacity
  let right := b.load * a.capacity
  if left ≠ right then left < right
  else if a.lastHeartbeat ≠ b.lastHeartbeat then b.lastHeartbeat < a.lastHeartbeat
  else a.id < b.id

/-! ## Small facts -/

theorem isOnline_iff (w : Worker) : w.isOnline = true ↔ w.status ≠ .offline := by
  simp [isOnline]

@[simp] theorem refresh_info (w : Worker) : w.refresh.info = w.info := by
  unfold refresh; split <;> rfl

@[simp] theorem refresh_active (w : Worker) : w.refresh.active = w.active := by
  unfold refresh; split <;> rfl

@[simp] theorem take_info (w : Worker) (b : BuildId) : (w.take b).info = w.info := by simp [take]

@[simp] theorem release_info (w : Worker) (b : BuildId) : (w.release b).info = w.info := by
  simp [release]

@[simp] theorem take_active (w : Worker) (b : BuildId) :
    (w.take b).active = w.active.insert b := by simp [take]

@[simp] theorem release_active (w : Worker) (b : BuildId) :
    (w.release b).active = w.active.erase b.text := by simp [release]

end Worker

end BuildPool
