import BuildPool.Identifier
import BuildPool.Build.Status

/-!
# Refusals

The reasons for which the pool refuses a request, with their kinds and texts.
-/

namespace BuildPool

inductive Refusal
  | invalidRequest (reason : String)
  | unknownBuild (id : BuildId)
  | unknownWorker (id : WorkerId)
  | duplicateWorker (id : WorkerId)
  | capacityExceeded (worker : WorkerId) (capacity : UInt32)
  | invalidTransition (source target : BuildStatus)
deriving DecidableEq, Repr

namespace Refusal

def kind : Refusal → String
  | invalidRequest _ => "InvalidRequest"
  | unknownBuild _ => "UnknownBuild"
  | unknownWorker _ => "UnknownWorker"
  | duplicateWorker _ => "DuplicateWorker"
  | capacityExceeded .. => "CapacityExceeded"
  | invalidTransition .. => "InvalidStateTransition"

def message : Refusal → String
  | invalidRequest reason => "Invalid request: " ++ reason
  | unknownBuild id => "Build not found: " ++ id.text
  | unknownWorker id => "Worker not found: " ++ id.text
  | duplicateWorker id => "Worker already registered: " ++ id.text
  | capacityExceeded worker capacity =>
    "Worker '" ++ worker.text ++ "' is at capacity (" ++ toString capacity ++ ")"
  | invalidTransition source target =>
    "Invalid state transition: " ++ source.name ++ " -> " ++ target.name

/-- An operation in two steps that was not refused was refused in neither. -/
theorem of_bind_eq_ok {ε α β : Type} {x : Except ε α} {f : α → Except ε β} {b : β}
    (h : x >>= f = .ok b) : ∃ a, x = .ok a ∧ f a = .ok b := by
  cases x with
  | error e => cases h
  | ok a => exact ⟨a, rfl, h⟩

end Refusal

end BuildPool
