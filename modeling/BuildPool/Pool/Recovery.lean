import BuildPool.Pool.Basic
import BuildPool.Snapshot.Basic

/-!
# Capture and recovery

A pool is captured in a snapshot, and started from one.
-/

namespace BuildPool

open BuildPool.Time

namespace Pool

def capture (p : Pool) (now : Instant) : Snapshot := Snapshot.capture p.ledger p.roster now

/-- A pool that starts from a snapshot, and what became of the builds that were with workers. Nobody
is told about them. -/
def recover (config : Config) (s : Snapshot) (now : Instant) : List (BuildId × Loss) × Pool :=
  let restored := s.restore config now
  (restored.recovered, { config, ledger := restored.ledger, roster := restored.roster })

end Pool

end BuildPool
