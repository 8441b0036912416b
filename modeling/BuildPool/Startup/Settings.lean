import BuildPool.CommandLine.Reading
import BuildPool.Config
import BuildPool.Number.Whole

/-!
# Settings

The configuration of a pool from arguments and environment. Every setting is an option, and a
variable of the same name in the environment counts if the option is not given.
-/

namespace BuildPool.Startup

open BuildPool.CommandLine BuildPool.Number

inductive Kind
  | text
  | path
  /-- A number below `2 ^ 32`. -/
  | count
  /-- A number below `2 ^ 64`. -/
  | number
deriving DecidableEq, Repr

structure Setting where
  name : String
  kind : Kind
  purpose : String
deriving DecidableEq, Repr

def settings : List Setting := [
  ⟨"bind", .text, "HTTP bind address"⟩,
  ⟨"state-path", .path, "Snapshot file (persistence is disabled when unset)"⟩,
  ⟨"cache-url", .text, "Artifact cache base URL"⟩,
  ⟨"monitor-url", .text, "Monitor base URL that receives coordinator events"⟩,
  ⟨"max-retries", .count, "Worker losses a build survives before it fails"⟩,
  ⟨"heartbeat-timeout-secs", .number,
    "Seconds without a heartbeat before a worker is marked offline"⟩,
  ⟨"liveness-interval-secs", .number, "Seconds between liveness scans"⟩,
  ⟨"snapshot-interval-secs", .number, "Seconds between periodic snapshots"⟩,
  ⟨"history-limit", .number, "Finished builds kept for status queries"⟩,
  ⟨"build-timeout-secs", .number, "Execution timeout handed to workers, in seconds"⟩,
  ⟨"schedule-retry-ms", .number,
    "Retry delay for builds no worker can take yet, in milliseconds"⟩,
  ⟨"dispatch-timeout-secs", .number, "Timeout for worker dispatch and cache calls, in seconds"⟩]

def readCount (value : String) : Except String Nat :=
  (readBetween 0 (UInt32.size - 1) value).map Int.toNat

/-- Why a value is refused, if it is. -/
def Kind.objection (k : Kind) (value : String) : Option String :=
  match k with
  | .text => none
  | .path => if value.isEmpty then some "a value is required" else none
  | .count => objectionOf readCount value
  | .number => objectionOf readWord value

/-- Letters in upper case, with underscores for dashes. -/
def variableLetter (c : Char) : Char := if c == '-' then '_' else c.toUpper

def Setting.variableName (s : Setting) : String := "BUILDFLEET_" ++ s.name.map variableLetter

/-- The option of a setting. Its help tells the value in the environment. -/
def Setting.toOpt (environment : String → Option String) (s : Setting) : Opt where
  name := s.name
  valueName := some (s.name.map variableLetter)
  objection := s.kind.objection
  purpose := s.purpose
  remarks := ["env: " ++ s.variableName ++ "=" ++ (environment s.variableName).getD ""]

def grammar (environment : String → Option String) : Grammar where
  title := "buildfleet-coordinator"
  purpose := "BuildFleet build coordinator server"
  options := settings.map (Setting.toOpt environment)
  inquiries := [.help, .version]
  version := "0.1.0"

/-- The value of a setting. A variable is judged only if it counts. -/
def Setting.value (s : Setting) (p : Parsed) (environment : String → Option String) :
    Except Complaint (Option String) :=
  match p.value? s.name, environment s.variableName with
  | some value, _ => .ok (some value)
  | none, none => .ok none
  | none, some value =>
    match s.kind.objection value with
    | none => .ok (some value)
    | some reason => .error (.badValue (s.toOpt environment).title value reason)

/-- The values of all settings that are given, by name. -/
def readSettings (args : List String) (environment : String → Option String) :
    Except Complaint (List (String × String)) := do
  let p ← (grammar environment).read args
  let values ← settings.mapM fun s => do
    return (← s.value p environment).map fun value => (s.name, value)
  return values.filterMap id

/-- A number among values that were judged. -/
def valueOr (read : String → Except String Nat) (values : List (String × String)) (name : String)
    (default : Nat) : Nat :=
  match (values.lookup name).map read with
  | some (.ok n) => n
  | _ => default

/-- The configuration with these values, and defaults for the rest. -/
def configOf (values : List (String × String)) : Config :=
  let d : Config := {}
  { bindAddress := (values.lookup "bind").getD d.bindAddress
    statePath := values.lookup "state-path"
    cacheUrl := values.lookup "cache-url"
    monitorUrl := values.lookup "monitor-url"
    maxRetries := valueOr readCount values "max-retries" d.maxRetries
    heartbeatTimeout := valueOr readWord values "heartbeat-timeout-secs" d.heartbeatTimeout
    livenessInterval := valueOr readWord values "liveness-interval-secs" d.livenessInterval
    snapshotInterval := valueOr readWord values "snapshot-interval-secs" d.snapshotInterval
    historyLimit := valueOr readWord values "history-limit" d.historyLimit
    buildTimeout := UInt64.ofNat (valueOr readWord values "build-timeout-secs" d.buildTimeout.toNat)
    scheduleRetry := valueOr readWord values "schedule-retry-ms" d.scheduleRetry
    dispatchTimeout := valueOr readWord values "dispatch-timeout-secs" d.dispatchTimeout }

def readConfig (args : List String) (environment : String → Option String) :
    Except Complaint Config :=
  (readSettings args environment).map configOf

end BuildPool.Startup
