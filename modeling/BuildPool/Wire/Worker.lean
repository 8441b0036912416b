import BuildPool.Wire.Build
import BuildPool.Worker.Basic

/-!
# Workers on the wire

The JSON forms of what workers declare and report, and of their records.
-/

namespace BuildPool

open BuildPool.Json BuildPool.Time

instance : Encode WorkerStatus := ⟨fun s => .string s.name⟩
instance : Decode WorkerStatus := ⟨decodeName WorkerStatus.ofName?⟩

instance : Encode WorkerInfo where
  encode w := .object [
    ("worker_id", encode w.id),
    ("address", encode w.address),
    ("capacity", encode w.capacity),
    ("capabilities", encode w.capabilities),
    ("labels", encode w.labels)]

def WorkerInfo.fields : List String :=
  ["worker_id", "address", "capacity", "capabilities", "labels"]

instance : Decode WorkerInfo where
  decode j := do
    let r ← record WorkerInfo.fields j
    return {
      id := ← r.required "worker_id"
      address := ← r.required "address"
      capacity := ← r.required "capacity"
      capabilities := ← r.withDefault "capabilities" []
      labels := ← r.withDefault "labels" Catalog.empty }

instance : Encode Usage where
  encode u := .object [("cpu_usage", encode u.cpu), ("memory_usage", encode u.memory)]

def Usage.fields : List String := ["cpu_usage", "memory_usage"]

instance : Decode Usage where
  decode j := do
    let r ← record Usage.fields j
    return {
      cpu := ← r.withDefault "cpu_usage" 0
      memory := ← r.withDefault "memory_usage" 0 }

/-- A set of ids is written in order, without repetition, and read in any order. -/
instance : Encode BuildIds := ⟨fun ids => encode ids.toList⟩
instance : Decode BuildIds := ⟨fun j => (decode j).map Catalog.ofList⟩

instance : Encode Worker where
  encode w := .object [
    ("info", encode w.info),
    ("status", encode w.status),
    ("active_builds", encode w.active),
    ("last_heartbeat", encode w.lastHeartbeat),
    ("registered_at", encode w.registeredAt),
    ("resources", encode w.usage)]

def Worker.fields : List String :=
  ["info", "status", "active_builds", "last_heartbeat", "registered_at", "resources"]

instance : Decode Worker where
  decode j := do
    let r ← record Worker.fields j
    return {
      info := ← r.required "info"
      status := ← r.required "status"
      active := ← r.withDefault "active_builds" Catalog.empty
      lastHeartbeat := ← r.required "last_heartbeat"
      registeredAt := ← r.required "registered_at"
      usage := ← r.withDefault "resources" {} }

end BuildPool
