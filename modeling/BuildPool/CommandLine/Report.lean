import BuildPool.CommandLine.Answer
import BuildPool.Number.Percentage
import BuildPool.Text.Column
import BuildPool.Text.Uppercase

/-!
# Reports

What the client prints about the answers of a pool, line by line.
-/

namespace BuildPool.CommandLine

open BuildPool.Number BuildPool.Text BuildPool.Time

/-- A name and a value, with the values of all lines below each other. -/
def labelledLine (label value : String) : String := "  " ++ padRight 12 (label ++ ":") ++ value

def statusText (s : BuildStatus) : String := upper s.name

/-- A line that is left out if there is nothing to say. -/
def optionalLine (label : String) : Option String → List String
  | some value => [labelledLine label value]
  | none => []

def SubmitAnswer.report (a : SubmitAnswer) : List String :=
  ["Build submitted:", labelledLine "ID" a.build, labelledLine "Status" (statusText a.status)]

def StatusAnswer.report (a : StatusAnswer) : List String :=
  [labelledLine "ID" a.build, labelledLine "Status" (statusText a.status),
    labelledLine "Progress" (percentage a.progress),
    labelledLine "Retries" (toString a.retries)] ++
    optionalLine "Worker" a.worker ++ optionalLine "Error" a.error

def CancelAnswer.report (a : CancelAnswer) (id : String) : List String :=
  ["Build " ++ id ++ ": " ++ statusText a.status]

/-! ## Tables -/

def joinColumns (columns : List String) : String := String.intercalate "  " columns

/-- A build in a table. Ids are as long as the column by nature, and are not filled up. -/
def buildRow (b : Build) : String := joinColumns [
  b.id.text, padRight 10 (statusText b.status), padLeft 4 (toString b.priority.toInt),
  padRight 16 b.project, padRight 12 b.task, b.submittedAt.toDisplay]

def buildHeader : String := joinColumns [
  padRight 36 "ID", padRight 10 "STATUS", padLeft 4 "PRIO", padRight 16 "PROJECT",
  padRight 12 "TASK", "SUBMITTED"]

def BuildListAnswer.report (a : BuildListAnswer) : List String :=
  ["Builds (" ++ toString a.builds.length ++ "):", buildHeader, rule '-' 100] ++
    a.builds.map buildRow

/-- A time of the pool for the reader; what is no time is shown as it is. -/
def heartbeatText (text : String) : String :=
  match Instant.ofStrict? text with
  | some t => t.toDisplay
  | none => text

def tasksText (capabilities : List String) : String :=
  if capabilities.isEmpty then anyTask else String.intercalate ", " capabilities

def WorkerRow.line (w : WorkerRow) : String := joinColumns [
  padRight 20 w.worker, padRight 10 (upper w.status),
  padRight 7 (toString w.load ++ "/" ++ toString w.capacity), padRight 28 w.address,
  padRight 20 (heartbeatText w.lastHeartbeat), tasksText w.capabilities]

def workerHeader : String := joinColumns [
  padRight 20 "ID", padRight 10 "STATUS", padRight 7 "SLOTS", padRight 28 "ADDRESS",
  padRight 20 "LAST HEARTBEAT", "TASKS"]

def WorkerListAnswer.report (a : WorkerListAnswer) : List String :=
  ["Workers (" ++ toString a.workers.length ++ "):", workerHeader, rule '-' 110] ++
    a.workers.map WorkerRow.line

/-! ## Figures -/

def countLine (label : String) (count : Nat) : String := labelledLine label (toString count)

def workersText (c : WorkerCounts) : String :=
  toString c.total ++ " (" ++ toString c.available ++ " available, " ++ toString c.busy ++
    " busy, " ++ toString c.offline ++ " offline)"

def metricsReport (m : Metrics) : List String :=
  ["Builds:", countLine "Submitted" m.total, countLine "Queued" m.queued,
    countLine "Active" m.active, countLine "Completed" m.completed, countLine "Failed" m.failed,
    countLine "Cancelled" m.cancelled, countLine "Retried" m.retried,
    countLine "Cache hits" m.cacheHits,
    "Workers:", labelledLine "Total" (workersText m.workers),
    labelledLine "Slots"
      (toString m.workers.activeBuilds ++ "/" ++ toString m.workers.capacity ++ " in use")]

def printed (lines : List String) : String := String.join (lines.map (· ++ "\n"))

end BuildPool.CommandLine
