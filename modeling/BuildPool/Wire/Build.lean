import BuildPool.Build.Basic
import BuildPool.Json.Codec
import BuildPool.Time.Rfc3339

/-!
# Builds on the wire

The JSON forms of ids, instants and builds, and of what clients and workers send. Every field is
written, also one that is empty.
-/

namespace BuildPool

open BuildPool.Json BuildPool.Time

instance : Encode BuildId := ⟨fun id => .string id.text⟩
instance : Decode BuildId := ⟨fun j => (decode j).map BuildId.mk⟩

instance : Encode WorkerId := ⟨fun id => .string id.text⟩
instance : Decode WorkerId := ⟨fun j => (decode j).map WorkerId.mk⟩

instance : Encode Instant := ⟨fun t => .string t.toText⟩

instance : Decode Instant where
  decode j := do
    let text : String ← decode j
    match Instant.ofText? text with
    | some t => .ok t
    | none => .error .shape

instance : Encode BuildStatus := ⟨fun s => .string s.name⟩
instance : Decode BuildStatus := ⟨decodeName BuildStatus.ofName?⟩

/-! ## Requests, outcomes, reports, tasks -/

instance : Encode Request where
  encode r := .object [
    ("project", encode r.project),
    ("task", encode r.task),
    ("priority", encode r.priority),
    ("cache_enabled", encode r.cacheEnabled),
    ("options", encode r.options)]

def Request.fields : List String := ["project", "task", "priority", "cache_enabled", "options"]

instance : Decode Request where
  decode j := do
    let r ← record Request.fields j
    return {
      project := ← r.required "project"
      task := ← r.required "task"
      priority := ← r.withDefault "priority" 0
      cacheEnabled := ← r.withDefault "cache_enabled" false
      options := ← r.withDefault "options" Catalog.empty }

instance : Encode Outcome where
  encode o := .object [
    ("success", encode o.success),
    ("artifacts", encode o.artifacts),
    ("error", encode o.error),
    ("duration_ms", encode o.duration)]

def Outcome.fields : List String := ["success", "artifacts", "error", "duration_ms"]

instance : Decode Outcome where
  decode j := do
    let r ← record Outcome.fields j
    return {
      success := ← r.required "success"
      artifacts := ← r.withDefault "artifacts" []
      error := ← r.optional "error"
      duration := ← r.withDefault "duration_ms" 0 }

instance : Encode Report where
  encode o := .object [
    ("worker_id", encode o.worker),
    ("success", encode o.success),
    ("artifacts", encode o.artifacts),
    ("error", encode o.error),
    ("duration_ms", encode o.duration)]

def Report.fields : List String := ["worker_id", "success", "artifacts", "error", "duration_ms"]

instance : Decode Report where
  decode j := do
    let r ← record Report.fields j
    return {
      worker := ← r.required "worker_id"
      success := ← r.required "success"
      artifacts := ← r.withDefault "artifacts" []
      error := ← r.optional "error"
      duration := ← r.withDefault "duration_ms" 0 }

instance : Encode Task where
  encode t := .object [
    ("build_id", encode t.build),
    ("task", encode t.task),
    ("project", encode t.project),
    ("options", encode t.options),
    ("timeout_secs", encode t.timeout)]

def Task.fields : List String := ["build_id", "task", "project", "options", "timeout_secs"]

instance : Decode Task where
  decode j := do
    let r ← record Task.fields j
    return {
      build := ← r.required "build_id"
      task := ← r.required "task"
      project := ← r.required "project"
      options := ← r.required "options"
      timeout := ← r.required "timeout_secs" }

/-! ## Builds -/

instance : Encode Build where
  encode b := .object [
    ("id", encode b.id),
    ("project", encode b.project),
    ("task", encode b.task),
    ("priority", encode b.priority),
    ("cache_enabled", encode b.cacheEnabled),
    ("options", encode b.options),
    ("submitted_at", encode b.submittedAt),
    ("sequence", encode b.sequence),
    ("status", encode b.status),
    ("progress", encode b.progress),
    ("worker_id", encode b.worker),
    ("retry_count", encode b.retries),
    ("attempt", encode b.attempt),
    ("started_at", encode b.startedAt),
    ("finished_at", encode b.finishedAt),
    ("result", encode b.outcome)]

def Build.fields : List String :=
  ["id", "project", "task", "priority", "cache_enabled", "options", "submitted_at", "sequence",
    "status", "progress", "worker_id", "retry_count", "attempt", "started_at", "finished_at",
    "result"]

instance : Decode Build where
  decode j := do
    let r ← record Build.fields j
    return {
      id := ← r.required "id"
      project := ← r.required "project"
      task := ← r.required "task"
      priority := ← r.required "priority"
      cacheEnabled := ← r.required "cache_enabled"
      options := ← r.withDefault "options" Catalog.empty
      submittedAt := ← r.required "submitted_at"
      sequence := ← r.natural "sequence" UInt64.size
      status := ← r.required "status"
      progress := ← r.withDefault "progress" 0
      worker := ← r.optional "worker_id"
      retries := ← r.natural "retry_count" UInt32.size (some 0)
      attempt := ← r.natural "attempt" UInt32.size (some 0)
      startedAt := ← r.optional "started_at"
      finishedAt := ← r.optional "finished_at"
      outcome := ← r.optional "result" }

end BuildPool
