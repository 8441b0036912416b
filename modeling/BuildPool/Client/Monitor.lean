import BuildPool.Client.Call
import BuildPool.Wire.Event

/-!
# Calls to the monitor

The monitor is told one event at a time. Only a reply that says something is wrong is a failure.
-/

namespace BuildPool.Client

open BuildPool.Json

/-- Why the monitor did not take an event: nobody was reached, or it replied with an error. -/
structure MonitorFailure where
  status : Option Nat
deriving DecidableEq, Repr

def eventCall (server : String) (e : Event) : HttpCall :=
  ⟨"POST", baseOf server ++ "/events", some (encode e)⟩

def eventResult : Option Reply → Except MonitorFailure Unit
  | none => .error ⟨none⟩
  | some r => if r.isError then .error ⟨some r.status⟩ else .ok ()

end BuildPool.Client
