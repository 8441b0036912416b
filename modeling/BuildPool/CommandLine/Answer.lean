import BuildPool.Api.Message

/-!
# Answers of a pool

The bodies that the client reads from a pool. It keeps what it shows and ignores the rest.
-/

namespace BuildPool.CommandLine

open BuildPool.Json

structure ErrorAnswer where
  error : String
deriving DecidableEq, Repr

instance : Decode ErrorAnswer where
  decode j := do
    let r ← record ["error"] j
    return ⟨← r.required "error"⟩

structure SubmitAnswer where
  build : String
  status : BuildStatus
deriving DecidableEq, Repr

instance : Decode SubmitAnswer where
  decode j := do
    let r ← record ["build_id", "status"] j
    return ⟨← r.required "build_id", ← r.required "status"⟩

structure StatusAnswer where
  build : String
  status : BuildStatus
  progress : Float
  error : Option String
  worker : Option String
  retries : Nat
deriving DecidableEq

instance : Decode StatusAnswer where
  decode j := do
    let r ← record ["build_id", "status", "progress", "error", "worker_id", "retry_count"] j
    return {
      build := ← r.required "build_id"
      status := ← r.required "status"
      progress := ← r.required "progress"
      error := ← r.optional "error"
      worker := ← r.optional "worker_id"
      retries := ← r.natural "retry_count" UInt32.size }

structure CancelAnswer where
  status : BuildStatus
deriving DecidableEq, Repr

instance : Decode CancelAnswer where
  decode j := do
    let r ← record ["status"] j
    return ⟨← r.required "status"⟩

structure BuildListAnswer where
  builds : List Build
deriving DecidableEq

instance : Decode BuildListAnswer where
  decode j := do
    let r ← record ["builds"] j
    return ⟨← r.required "builds"⟩

/-- A worker in a list. Its status is shown as it comes, whatever it is. -/
structure WorkerRow where
  worker : String
  address : String
  status : String
  capacity : Nat
  load : Nat
  capabilities : List String
  lastHeartbeat : String
deriving DecidableEq, Repr

def WorkerRow.fields : List String :=
  ["worker_id", "address", "status", "capacity", "active_builds", "capabilities", "last_heartbeat"]

instance : Decode WorkerRow where
  decode j := do
    let r ← record WorkerRow.fields j
    return {
      worker := ← r.required "worker_id"
      address := ← r.required "address"
      status := ← r.required "status"
      capacity := ← r.natural "capacity" UInt32.size
      load := ← r.natural "active_builds" UInt32.size
      capabilities := ← r.withDefault "capabilities" []
      lastHeartbeat := ← r.required "last_heartbeat" }

structure WorkerListAnswer where
  workers : List WorkerRow
deriving DecidableEq, Repr

instance : Decode WorkerListAnswer where
  decode j := do
    let r ← record ["workers"] j
    return ⟨← r.required "workers"⟩

def countFields : List String :=
  ["total", "available", "busy", "offline", "capacity", "active_builds"]

instance : Decode WorkerCounts where
  decode j := do
    let r ← record countFields j
    return {
      total := ← r.natural "total" UInt64.size
      available := ← r.natural "available" UInt64.size
      busy := ← r.natural "busy" UInt64.size
      offline := ← r.natural "offline" UInt64.size
      capacity := ← r.natural "capacity" UInt64.size
      activeBuilds := ← r.natural "active_builds" UInt64.size }

def metricFields : List String :=
  ["total", "queued", "active", "completed", "failed", "cancelled", "retried", "cache_hits",
    "workers"]

instance : Decode Metrics where
  decode j := do
    let r ← record metricFields j
    return {
      total := ← r.natural "total" UInt64.size
      queued := ← r.natural "queued" UInt64.size
      active := ← r.natural "active" UInt64.size
      completed := ← r.natural "completed" UInt64.size
      failed := ← r.natural "failed" UInt64.size
      cancelled := ← r.natural "cancelled" UInt64.size
      retried := ← r.natural "retried" UInt64.size (some 0)
      cacheHits := ← r.natural "cache_hits" UInt64.size (some 0)
      workers := ← r.required "workers" }

end BuildPool.CommandLine
