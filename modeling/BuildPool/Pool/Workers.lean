import BuildPool.Pool.Basic

/-!
# Operations on workers

How workers come and show that they are still there.
-/

namespace BuildPool

open BuildPool.Time

namespace Pool

def announceWorker (p : Pool) (now : Instant) (w : WorkerId) (status : WorkerStatus) : Pool :=
  ((p.publish (.workerChanged w status now)).save).wake

/-- Adds a worker, whose slots are free at once. -/
def register (p : Pool) (now : Instant) (info : WorkerInfo) : Except Refusal (Worker × Pool) := do
  let (w, roster) ← p.roster.register info now
  return (w, { p with roster }.announceWorker now w.id w.status)

/-- Notes a heartbeat. A worker that was offline comes back, without the builds it held. -/
def heartbeat (p : Pool) (now : Instant) (id : WorkerId) (usage : Usage) : Except Refusal Pool := do
  let (revived, roster) ← p.roster.heartbeat id usage now
  let p := { p with roster }
  match revived, roster.find? id with
  | true, some w => return p.announceWorker now id w.status
  | _, _ => return p

def workers (p : Pool) : List Worker := p.roster.list

end Pool

end BuildPool
