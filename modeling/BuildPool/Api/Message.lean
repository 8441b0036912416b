import BuildPool.Metrics
import BuildPool.Wire.Snapshot

/-!
# Messages of the interface

The bodies that clients and workers send and get, where they are not records of the pool.
-/

namespace BuildPool.Api

open BuildPool.Json BuildPool.Time

/-! ## Requests -/

structure ProgressBody where
  worker : WorkerId
  progress : Float

def ProgressBody.fields : List String := ["worker_id", "progress"]

instance : Decode ProgressBody where
  decode j := do
    let r ← record ProgressBody.fields j
    return { worker := ← r.required "worker_id", progress := ← r.required "progress" }

instance : Encode ProgressBody where
  encode b := .object [("worker_id", encode b.worker), ("progress", encode b.progress)]

structure HeartbeatBody where
  worker : WorkerId
  usage : Usage

def HeartbeatBody.fields : List String := ["worker_id", "cpu_usage", "memory_usage"]

instance : Decode HeartbeatBody where
  decode j := do
    let r ← record HeartbeatBody.fields j
    return {
      worker := ← r.required "worker_id"
      usage :=
        { cpu := ← r.withDefault "cpu_usage" 0, memory := ← r.withDefault "memory_usage" 0 } }

instance : Encode HeartbeatBody where
  encode b := .object [
    ("worker_id", encode b.worker),
    ("cpu_usage", encode b.usage.cpu),
    ("memory_usage", encode b.usage.memory)]

/-! ## Answers -/

def errorBody (message : String) : Json := .object [("error", encode message)]

def submittedBody (b : Build) : Json :=
  .object [("build_id", encode b.id), ("status", encode b.status)]

/-- A member that is left out if there is nothing to say. -/
def member? {α : Type} [Encode α] (name : String) (a : Option α) : List (String × Json) :=
  match a with
  | some a => [(name, encode a)]
  | none => []

def statusBody (b : Build) : Json :=
  .object ([("build_id", encode b.id), ("status", encode b.status),
    ("progress", encode b.progress)] ++ member? "error" b.error? ++
    member? "worker_id" b.worker ++ [("retry_count", encode b.retries)])

def buildListBody (builds : List Build) : Json := .object [("builds", encode builds)]

def cancelledBody (c : Cancellation) : Json :=
  .object [("success", encode true), ("status", encode c.status)]

def acceptedBody (accepted : Bool) : Json := .object [("accepted", encode accepted)]

def registeredBody (w : Worker) : Json :=
  .object [("worker_id", encode w.id), ("success", encode true)]

def successBody : Json := .object [("success", encode true)]

/-- A worker as it is listed. Its times have a numeric offset. -/
def workerBody (w : Worker) : Json := .object [
  ("worker_id", encode w.info.id),
  ("address", encode w.info.address),
  ("status", encode w.status),
  ("capacity", encode w.info.capacity),
  ("active_builds", encode w.load),
  ("builds", encode w.active),
  ("capabilities", encode w.info.capabilities),
  ("labels", encode w.info.labels),
  ("cpu_usage", encode w.usage.cpu),
  ("memory_usage", encode w.usage.memory),
  ("last_heartbeat", encode w.lastHeartbeat.toOffsetText),
  ("registered_at", encode w.registeredAt.toOffsetText)]

def workerListBody (workers : List Worker) : Json :=
  .object [("workers", .array (workers.map workerBody))]

def healthBody : Json := .object [("status", encode "ok")]

end BuildPool.Api

namespace BuildPool

open BuildPool.Json

instance : Encode WorkerCounts where
  encode c := .object [
    ("total", encode c.total),
    ("available", encode c.available),
    ("busy", encode c.busy),
    ("offline", encode c.offline),
    ("capacity", encode c.capacity),
    ("active_builds", encode c.activeBuilds)]

instance : Encode Metrics where
  encode m := .object [
    ("total", encode m.total),
    ("queued", encode m.queued),
    ("active", encode m.active),
    ("completed", encode m.completed),
    ("failed", encode m.failed),
    ("cancelled", encode m.cancelled),
    ("retried", encode m.retried),
    ("cache_hits", encode m.cacheHits),
    ("workers", encode m.workers)]

end BuildPool
