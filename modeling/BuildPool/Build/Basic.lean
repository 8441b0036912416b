import BuildPool.Refusal
import BuildPool.Text.Blank
import BuildPool.Time.Instant

/-!
# Builds

A client submits a request; the pool makes a build of it, hands a task to a worker and gets a report
back. The functions on a build change one record and check nothing: which change is allowed when is
the ledger's business.
-/

namespace BuildPool

open BuildPool.Text BuildPool.Time

/-! ## What clients and workers send -/

structure Request where
  project : String
  task : String
  priority : Int32 := 0
  cacheEnabled : Bool := false
  options : Dictionary := Catalog.empty
deriving DecidableEq, Repr

/-- A request needs a project, and then a task. -/
def Request.validate (r : Request) : Except Refusal Unit :=
  if isBlank r.project then .error (.invalidRequest "project is required")
  else if isBlank r.task then .error (.invalidRequest "task is required")
  else .ok ()

/-- How a build ended. The duration is in milliseconds. -/
structure Outcome where
  success : Bool
  artifacts : List String := []
  error : Option String := none
  duration : UInt64 := 0
deriving DecidableEq, Repr

def Outcome.failure (reason : String) : Outcome := { success := false, error := some reason }

structure Report where
  worker : WorkerId
  success : Bool
  artifacts : List String := []
  error : Option String := none
  duration : UInt64 := 0
deriving DecidableEq, Repr

/-- What a worker is sent. The timeout is in seconds. -/
structure Task where
  build : BuildId
  task : String
  project : String
  options : Dictionary
  timeout : UInt64
deriving DecidableEq, Repr

/-! ## Builds -/

/-- What is known of a build. Its retries and attempts are counted in words of 32 bits and its
sequence number is kept in a word of 64 bits. Here they are natural numbers, which do not start
again at zero: what follows is about pools in which no count comes to the end of its word. -/
structure Build where
  id : BuildId
  project : String
  task : String
  priority : Int32
  cacheEnabled : Bool
  options : Dictionary
  submittedAt : Instant
  /-- The place in the order of submission. -/
  sequence : Nat
  status : BuildStatus
  /-- How far the build has come, from 0 to 1. -/
  progress : Float
  worker : Option WorkerId
  /-- How often the build came back to the queue because its worker was lost. -/
  retries : Nat
  /-- How often the build was assigned. -/
  attempt : Nat
  startedAt : Option Instant
  finishedAt : Option Instant
  outcome : Option Outcome
deriving DecidableEq

def retriesExhausted : String := "max retries exceeded"

def cancelledReason : String := "cancelled"

/-- The reason of a build whose worker reports a failure and gives none. -/
def unexplainedFailure : String := "build failed"

namespace Build

def key (b : Build) : String := b.id.text

/-- A new build waits in the queue. -/
def ofRequest (r : Request) (id : BuildId) (sequence : Nat) (now : Instant) : Build where
  id
  project := r.project
  task := r.task
  priority := r.priority
  cacheEnabled := r.cacheEnabled
  options := r.options
  submittedAt := now
  sequence
  status := .queued
  progress := 0
  worker := none
  retries := 0
  attempt := 0
  startedAt := none
  finishedAt := none
  outcome := none

def isTerminal (b : Build) : Bool := b.status.isTerminal

def error? (b : Build) : Option String := b.outcome.bind Outcome.error

def toTask (b : Build) (timeout : UInt64) : Task := ⟨b.id, b.task, b.project, b.options, timeout⟩

def heldBy (b : Build) (w : WorkerId) : Bool := b.status.holdsWorker && b.worker == some w

/-- Whether the build waits for the answer to one particular dispatch. -/
def awaits (b : Build) (w : WorkerId) (attempt : Nat) : Bool :=
  b.status == .assigned && b.attempt == attempt && b.heldBy w

/-! ## Changes -/

def assignTo (b : Build) (w : WorkerId) (now : Instant) : Build :=
  { b with
    status := .assigned, worker := some w, attempt := b.attempt + 1, startedAt := some now,
    progress := 0 }

def start (b : Build) : Build := { b with status := .running }

def requeue (b : Build) : Build :=
  { b with status := .queued, worker := none, startedAt := none, progress := 0 }

def finish (b : Build) (status : BuildStatus) (outcome : Outcome) (now : Instant) : Build :=
  { b with
    status, worker := none, finishedAt := some now,
    progress := if status = .completed then 1 else b.progress, outcome := some outcome }

/-! ## What no change touches -/

/-- What was submitted, and when. -/
def submission (b : Build) :
    BuildId × String × String × Int32 × Bool × Dictionary × Instant × Nat :=
  (b.id, b.project, b.task, b.priority, b.cacheEnabled, b.options, b.submittedAt, b.sequence)

@[simp] theorem submission_assignTo (b : Build) (w : WorkerId) (now : Instant) :
    (b.assignTo w now).submission = b.submission := rfl

@[simp] theorem submission_start (b : Build) : b.start.submission = b.submission := rfl

@[simp] theorem submission_requeue (b : Build) : b.requeue.submission = b.submission := rfl

@[simp] theorem submission_finish (b : Build) (s : BuildStatus) (o : Outcome) (now : Instant) :
    (b.finish s o now).submission = b.submission := rfl

end Build

end BuildPool
