import BuildPool.Pool.Basic

/-!
# Liveness

A scan marks the workers offline whose heartbeats stopped and takes their builds away from them.
-/

namespace BuildPool

open BuildPool.Time

/-- What a scan did: the workers it marked offline, and the builds that went back to the queue or
failed. -/
structure Scan where
  offline : List WorkerId := []
  requeued : List BuildId := []
  failed : List BuildId := []
deriving DecidableEq, Repr

/-- Ledger and roster in the course of a scan. -/
structure Scanning where
  ledger : Ledger
  roster : Roster
  scan : Scan := {}

namespace Scanning

def takeBuild (now : Instant) (w : WorkerId) (s : Scanning) (b : BuildId) : Scanning :=
  match s.ledger.lose b w now with
  | (.requeued _, ledger) => { s with ledger, scan.requeued := s.scan.requeued ++ [b] }
  | (.failed, ledger) => { s with ledger, scan.failed := s.scan.failed ++ [b] }
  | (.notHeld, ledger) => { s with ledger }

def takeWorker (now : Instant) (s : Scanning) (w : WorkerId) : Scanning :=
  match s.roster.disconnect w with
  | .error _ => s
  | .ok (held, roster) =>
    let s := held.foldl (takeBuild now w) { s with roster }
    { s with scan.offline := s.scan.offline ++ [w] }

end Scanning

namespace Pool

def announceScan (p : Pool) (now : Instant) (scan : Scan) : Pool :=
  if scan.offline.isEmpty then p
  else
    let p := scan.offline.foldl (fun p w => p.publish (.workerChanged w .offline now)) p
    let p := scan.failed.foldl
      (fun p b => p.publish (.buildFinished b .failed 0 (some retriesExhausted) now)) p
    let p := p.save
    if scan.requeued.isEmpty then p else p.wake

def heartbeatTimeout (p : Pool) : Int := (p.config.heartbeatMillis : Int) * nanosPerMilli

/-- Gives up the workers that have been silent for too long at the instant `judged`; workers in
order of their ids, and the builds of each in order of theirs. -/
def scan (p : Pool) (now judged : Instant) : Scan × Pool :=
  let lost := p.roster.stale judged p.heartbeatTimeout
  let s := lost.foldl (Scanning.takeWorker now) ⟨p.ledger, p.roster, {}⟩
  (s.scan, { p with ledger := s.ledger, roster := s.roster }.announceScan now s.scan)

end Pool

end BuildPool
