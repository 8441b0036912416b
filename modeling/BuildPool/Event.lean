import BuildPool.Worker.Basic

/-!
# Events

What the pool tells a monitor: a worker began a build, a build ended, a worker came or went.
-/

namespace BuildPool

open BuildPool.Time

inductive Event
  | buildStarted (build : BuildId) (worker : WorkerId) (task : String) (time : Instant)
  | buildFinished (build : BuildId) (status : BuildStatus) (duration : UInt64)
      (error : Option String) (time : Instant)
  | workerChanged (worker : WorkerId) (status : WorkerStatus) (time : Instant)
deriving DecidableEq, Repr

def Event.kind : Event → String
  | buildStarted .. => "build_started"
  | buildFinished .. => "build_finished"
  | workerChanged .. => "worker_status_changed"

end BuildPool
