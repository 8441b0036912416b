/-!
# Configuration

The settings of a pool. Intervals and delays are raised to at least one unit where they are used,
and a heartbeat timeout longer than the longest duration counts as that.
-/

namespace BuildPool

structure Config where
  bindAddress : String := "0.0.0.0:8080"
  /-- The snapshot file; without one nothing is kept over a restart. -/
  statePath : Option String := none
  cacheUrl : Option String := none
  monitorUrl : Option String := none
  maxRetries : Nat := 3
  /-- Seconds of silence after which a worker is offline. -/
  heartbeatTimeout : Nat := 45
  /-- Seconds between two looks at the heartbeats. -/
  livenessInterval : Nat := 5
  /-- Seconds between two snapshots. -/
  snapshotInterval : Nat := 30
  historyLimit : Nat := 1000
  /-- Seconds that a worker may spend on a build. -/
  buildTimeout : UInt64 := 3600
  /-- Milliseconds before builds without a worker are tried again. -/
  scheduleRetry : Nat := 500
  /-- Seconds that a call to a worker may take. -/
  dispatchTimeout : Nat := 10
deriving DecidableEq, Repr

namespace Config

def longestMillis : Nat := Nat.pow 2 63 - 1

/-- The heartbeat timeout in milliseconds, if it is a duration at all. -/
def heartbeatMillis? (c : Config) : Option Nat :=
  let millis := 1000 * c.heartbeatTimeout
  if millis ≤ longestMillis then some millis else none

def heartbeatMillis (c : Config) : Nat := c.heartbeatMillis?.getD longestMillis

/-- At least the build that ended last is kept. -/
def retainedHistory (c : Config) : Nat := max c.historyLimit 1

def livenessSeconds (c : Config) : Nat := max c.livenessInterval 1

def snapshotSeconds (c : Config) : Nat := max c.snapshotInterval 1

def retryMillis (c : Config) : Nat := max c.scheduleRetry 1

def dispatchSeconds (c : Config) : Nat := max c.dispatchTimeout 1

theorem heartbeatMillis_eq (c : Config) :
    c.heartbeatMillis = min (1000 * c.heartbeatTimeout) longestMillis := by
  simp only [heartbeatMillis, heartbeatMillis?]
  split <;> simp only [Option.getD_some, Option.getD_none] <;> omega

theorem one_le_retainedHistory (c : Config) : 1 ≤ c.retainedHistory := Nat.le_max_right _ _

end Config

end BuildPool
