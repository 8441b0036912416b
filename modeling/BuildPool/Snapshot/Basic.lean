import BuildPool.Config
import BuildPool.Ledger.Image
import BuildPool.Roster

/-!
# Snapshots

A snapshot keeps the whole pool. When it is restored no worker is known to be there, and the builds
that were with one have lost it.
-/

namespace BuildPool

open BuildPool.Time

structure Snapshot where
  version : UInt32
  savedAt : Instant
  image : Image := { builds := [] }
  workers : List Worker := []
deriving DecidableEq

namespace Snapshot

/-- The version that is written, and the newest that is read. -/
def currentVersion : UInt32 := 1

def capture (l : Ledger) (r : Roster) (now : Instant) : Snapshot :=
  ⟨currentVersion, now, l.toImage, r.list⟩

/-- A pool as it comes back from a snapshot. -/
structure Restored where
  ledger : Ledger
  roster : Roster
  /-- The builds that were with a worker, and what became of them. -/
  recovered : List (BuildId × Loss)

def restore (s : Snapshot) (config : Config) (now : Instant) : Restored :=
  let (recovered, ledger) := Ledger.ofImage s.image config.maxRetries config.retainedHistory now
  ⟨ledger, Roster.ofRecords s.workers, recovered⟩

end Snapshot

end BuildPool
