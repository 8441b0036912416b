import BuildPool.CommandLine.Command
import BuildPool.CommandLine.Report
import BuildPool.Text.Escaped

/-!
# Running a command

The client reads its arguments, makes one call to the pool and prints a report of the answer, or
says why there is none.
-/

namespace BuildPool.CommandLine

open BuildPool.Client BuildPool.Json BuildPool.Text

inductive Failure
  /-- Nobody was reached, or the answer makes no sense. -/
  | unanswered
  /-- The pool refused, or something else did. -/
  | refused (status : Nat) (message : String)
deriving DecidableEq, Repr

def Failure.line : Failure → String
  | unanswered => "Error: Http"
  | refused status message =>
    "Error: Api \x7b status: " ++ toString status ++ ", message: " ++ escaped message ++ " \x7d"

/-- The reason of a refusal: the one that the pool gives, or whatever was answered. -/
def refusalReason (r : Reply) : String :=
  match r.read ErrorAnswer with
  | .ok answer => answer.error
  | .error _ => r.content

def readAnswer (α : Type) [Decode α] : Option Reply → Except Failure α
  | none => .error .unanswered
  | some r =>
    if r.isSuccess then (r.read α).mapError fun _ => .unanswered
    else .error (.refused r.status (refusalReason r))

def Command.report (c : Command) (reply : Option Reply) : Except Failure (List String) :=
  match c with
  | .submit _ => (readAnswer SubmitAnswer reply).map SubmitAnswer.report
  | .status _ => (readAnswer StatusAnswer reply).map StatusAnswer.report
  | .cancel id => (readAnswer CancelAnswer reply).map fun a => a.report id
  | .listBuilds _ _ => (readAnswer BuildListAnswer reply).map BuildListAnswer.report
  | .listWorkers => (readAnswer WorkerListAnswer reply).map WorkerListAnswer.report
  | .metrics => (readAnswer Metrics reply).map metricsReport

inductive Ending
  /-- The arguments were refused. -/
  | complaint (c : Complaint)
  | failed (f : Failure)
  | printed (text : String)

/-- The address of the pool: from the arguments, else from the environment. -/
def Invocation.server (i : Invocation) (environment : Option String) : String :=
  i.address.getD (environment.getD defaultAddress)

/-- How a command ends with the reply to its call. -/
def Command.ending (c : Command) (reply : Option Reply) : Ending :=
  match c.report reply with
  | .ok lines => .printed (printed lines)
  | .error f => .failed f

/-- A run of the client. `environment` is the address of the pool there, and `exchange` brings the
reply to a call, if somebody is reached. -/
def run (args : List String) (environment : Option String) (exchange : HttpCall → Option Reply) :
    Ending :=
  match Invocation.ofArgs environment args with
  | .error (.inquiry text) => .printed text
  | .error c => .complaint c
  | .ok i => i.command.ending (exchange (i.command.call (i.server environment)))

def Ending.code : Ending → Nat
  | printed _ => 0
  | failed _ => 1
  | complaint _ => 2

end BuildPool.CommandLine
