/-!
# Build status

A build is queued, assigned to a worker, running on it, and in the end completed, failed or
cancelled. The last three are final.
-/

namespace BuildPool

inductive BuildStatus
  | queued
  | assigned
  | running
  | completed
  | failed
  | cancelled
deriving DecidableEq, Repr, Inhabited

namespace BuildStatus

def name : BuildStatus → String
  | queued => "queued"
  | assigned => "assigned"
  | running => "running"
  | completed => "completed"
  | failed => "failed"
  | cancelled => "cancelled"

def ofName? : String → Option BuildStatus
  | "queued" => some queued
  | "assigned" => some assigned
  | "running" => some running
  | "completed" => some completed
  | "failed" => some failed
  | "cancelled" => some cancelled
  | _ => none

def isTerminal : BuildStatus → Bool
  | completed | failed | cancelled => true
  | queued | assigned | running => false

/-- Whether a build of this status occupies a slot of a worker. -/
def holdsWorker : BuildStatus → Bool
  | assigned | running => true
  | queued | completed | failed | cancelled => false

theorem ofName?_name (s : BuildStatus) : ofName? s.name = some s := by cases s <;> rfl

theorem name_of_ofName? {text : String} {s : BuildStatus} (h : ofName? text = some s) :
    s.name = text := by
  unfold ofName? at h
  split at h <;> cases h <;> rfl

theorem holdsWorker_iff {s : BuildStatus} :
    s.holdsWorker = true ↔ s = .assigned ∨ s = .running := by
  cases s <;> simp [holdsWorker]

theorem holdsWorker_eq_false_of_isTerminal {s : BuildStatus} (h : s.isTerminal = true) :
    s.holdsWorker = false := by
  cases s <;> simp_all [isTerminal, holdsWorker]

/-- The letters A to Z in lower case, all else as it is. -/
def lowered (text : String) : String := text.map Char.toLower

def unknownText (text : String) : String := "unknown build status '" ++ text ++ "'"

/-- A status by name, in any case. -/
def parse (text : String) : Except String BuildStatus :=
  match ofName? (lowered text) with
  | some s => .ok s
  | none => .error (unknownText (lowered text))

end BuildStatus

end BuildPool
