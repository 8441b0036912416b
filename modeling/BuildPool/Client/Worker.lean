import BuildPool.Client.Call
import BuildPool.Wire.Build

/-!
# Calls to workers

A worker is given a task, and asked to stop working on a build. A reply of success is its consent.
-/

namespace BuildPool.Client

open BuildPool.Json

inductive WorkerFailure
  | unanswered
  | rejected (code : Nat)
deriving DecidableEq, Repr

def WorkerFailure.message : WorkerFailure → String
  | unanswered => "Worker request failed"
  | rejected code => "Worker rejected the request: HTTP " ++ toString code

def dispatchCall (address : String) (task : Task) : HttpCall :=
  ⟨"POST", baseOf address ++ "/execute", some (encode task)⟩

def abandonCall (address : String) (build : BuildId) : HttpCall :=
  ⟨"DELETE", baseOf address ++ "/builds/" ++ build.text, none⟩

def workerResult : Option Reply → Except WorkerFailure Unit
  | none => .error .unanswered
  | some r => if r.isSuccess then .ok () else .error (.rejected r.status)

end BuildPool.Client
