import BuildPool.Snapshot.Basic
import BuildPool.Wire.Worker

/-!
# Snapshots on the wire

The JSON forms of snapshots and of what they are made of. A file with fewer fields than are written
now is read with defaults for the others.
-/

namespace BuildPool

open BuildPool.Json BuildPool.Time

instance : Encode Counters where
  encode c := .object [
    ("submitted", encode c.submitted),
    ("completed", encode c.completed),
    ("failed", encode c.failed),
    ("cancelled", encode c.cancelled),
    ("retried", encode c.retried),
    ("cache_hits", encode c.cacheHits)]

def Counters.fields : List String :=
  ["submitted", "completed", "failed", "cancelled", "retried", "cache_hits"]

instance : Decode Counters where
  decode j := do
    let r ← record Counters.fields j
    return {
      submitted := ← r.natural "submitted" UInt64.size (some 0)
      completed := ← r.natural "completed" UInt64.size (some 0)
      failed := ← r.natural "failed" UInt64.size (some 0)
      cancelled := ← r.natural "cancelled" UInt64.size (some 0)
      retried := ← r.natural "retried" UInt64.size (some 0)
      cacheHits := ← r.natural "cache_hits" UInt64.size (some 0) }

instance : Encode Image where
  encode i := .object [
    ("builds", encode i.builds),
    ("history", encode i.history),
    ("next_sequence", encode i.nextSequence),
    ("counters", encode i.counters)]

def Image.fields : List String := ["builds", "history", "next_sequence", "counters"]

instance : Decode Image where
  decode j := do
    let r ← record Image.fields j
    return {
      builds := ← r.required "builds"
      history := ← r.withDefault "history" []
      nextSequence := ← r.natural "next_sequence" UInt64.size (some 0)
      counters := ← r.withDefault "counters" {} }

instance : Encode Snapshot where
  encode s := .object [
    ("version", encode s.version),
    ("saved_at", encode s.savedAt),
    ("builds", encode s.image),
    ("workers", encode s.workers)]

def Snapshot.fields : List String := ["version", "saved_at", "builds", "workers"]

instance : Decode Snapshot where
  decode j := do
    let r ← record Snapshot.fields j
    return {
      version := ← r.required "version"
      savedAt := ← r.required "saved_at"
      image := ← r.withDefault "builds" { builds := [] }
      workers := ← r.withDefault "workers" [] }

/-- What became of a build whose worker was lost. -/
instance : Encode Loss where
  encode
    | .requeued retries => .object [("requeued", encode retries)]
    | .failed => .string "failed"
    | .notHeld => .string "not_held"

end BuildPool
