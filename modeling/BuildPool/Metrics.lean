import BuildPool.Ledger.Basic
import BuildPool.Roster

/-!
# Metrics

The figures of a pool. Totals count from the first start; `queued` and `active` are of the moment.
-/

namespace BuildPool

structure Metrics where
  total : Nat := 0
  queued : Nat := 0
  active : Nat := 0
  completed : Nat := 0
  failed : Nat := 0
  cancelled : Nat := 0
  retried : Nat := 0
  cacheHits : Nat := 0
  workers : WorkerCounts := {}
deriving DecidableEq, Repr

namespace Metrics

def collect (l : Ledger) (r : Roster) : Metrics where
  total := l.counters.submitted
  queued := l.queuedCount
  active := l.activeCount
  completed := l.counters.completed
  failed := l.counters.failed
  cancelled := l.counters.cancelled
  retried := l.counters.retried
  cacheHits := l.counters.cacheHits
  workers := r.counts

/-! ## Text exposition -/

def help (name text : String) : String := "# HELP " ++ name ++ " " ++ text

def type (name kind : String) : String := "# TYPE " ++ name ++ " " ++ kind

def sample (name : String) (value : Nat) : String := name ++ " " ++ toString value

def labelled (name label text : String) (value : Nat) : String :=
  name ++ "\x7b" ++ label ++ "=\"" ++ text ++ "\"\x7d " ++ toString value

/-- The figures, one a line, in groups. -/
def lines (m : Metrics) : List String :=
  [help "buildfleet_builds_submitted_total" "Builds accepted since the first start",
   type "buildfleet_builds_submitted_total" "counter",
   sample "buildfleet_builds_submitted_total" m.total,
   "",
   help "buildfleet_builds_finished_total" "Builds that reached a terminal state",
   type "buildfleet_builds_finished_total" "counter",
   labelled "buildfleet_builds_finished_total" "status" "completed" m.completed,
   labelled "buildfleet_builds_finished_total" "status" "failed" m.failed,
   labelled "buildfleet_builds_finished_total" "status" "cancelled" m.cancelled,
   "",
   help "buildfleet_builds" "Builds waiting or in flight",
   type "buildfleet_builds" "gauge",
   labelled "buildfleet_builds" "state" "queued" m.queued,
   labelled "buildfleet_builds" "state" "active" m.active,
   "",
   type "buildfleet_build_retries_total" "counter",
   sample "buildfleet_build_retries_total" m.retried,
   type "buildfleet_cache_hits_total" "counter",
   sample "buildfleet_cache_hits_total" m.cacheHits,
   "",
   help "buildfleet_workers" "Registered workers by status",
   type "buildfleet_workers" "gauge",
   labelled "buildfleet_workers" "status" "available" m.workers.available,
   labelled "buildfleet_workers" "status" "busy" m.workers.busy,
   labelled "buildfleet_workers" "status" "offline" m.workers.offline,
   type "buildfleet_worker_slots" "gauge",
   labelled "buildfleet_worker_slots" "state" "total" m.workers.capacity,
   labelled "buildfleet_worker_slots" "state" "used" m.workers.activeBuilds]

def exposition (m : Metrics) : String := String.join (m.lines.map (· ++ "\n"))

end Metrics

end BuildPool
