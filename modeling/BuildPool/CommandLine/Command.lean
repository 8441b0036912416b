import BuildPool.Client.Call
import BuildPool.CommandLine.Reading
import BuildPool.Number.Whole
import BuildPool.Wire.Build

/-!
# Commands of the client

What a user can ask of a pool at a terminal, how it is written as arguments, and which call to the
pool it makes.
-/

namespace BuildPool.CommandLine

open BuildPool.Client BuildPool.Json BuildPool.Number

inductive Command
  | submit (request : Request)
  | status (id : String)
  | cancel (id : String)
  | listBuilds (status : Option BuildStatus) (limit : Nat)
  | listWorkers
  | metrics
deriving DecidableEq, Repr

structure Invocation where
  address : Option String
  command : Command
deriving DecidableEq, Repr

/-! ## Values -/

def readPriority (text : String) : Except String Int32 :=
  (readBetween Int32.minValue.toInt Int32.maxValue.toInt text).map Int32.ofInt

def readLimit (text : String) : Except String Nat := readWord text

/-- A build option: a name that is not empty, an equals sign and a value. -/
def readOption (text : String) : Except String (String × String) :=
  match splitEquals text.toList with
  | (_, none) => .error ("expected key=value, got '" ++ text ++ "'")
  | ("", some _) => .error ("empty option key in '" ++ text ++ "'")
  | (name, some value) => .ok (name, value)

/-! ## Grammars -/

def programTitle : String := "buildfleet"

/-- Where the pool is if nothing else is said. -/
def defaultAddress : String := "http://127.0.0.1:8080"

def defaultLimit : Nat := 100

def defaultRemark (value : String) : String := "default: " ++ value

/-- A command, as the program itself lists it. -/
structure CommandForm where
  name : String
  grammar : Grammar

/-- A command with its purpose; how it is called in full goes without saying. -/
def commandForm (name purpose : String) (grammar : Grammar) : CommandForm :=
  ⟨name, { grammar with title := programTitle ++ " " ++ name, purpose }⟩

def submitForm : CommandForm := commandForm "submit" "Submit a build" {
  options := [
    { name := "project", letter := some 'p', valueName := some "PROJECT",
      purpose := "Project to build" },
    { name := "task", letter := some 't', valueName := some "TASK",
      purpose := "Task to run (compile, test, package, ...)" },
    { name := "priority", valueName := some "PRIORITY", dashed := true,
      objection := objectionOf readPriority, purpose := "Priority, higher runs sooner",
      remarks := [defaultRemark "0"] },
    { name := "cache", purpose := "Reuse cached artifacts when available" },
    { name := "option", letter := some 'o', valueName := some "OPTIONS", repeatable := true,
      objection := objectionOf readOption, purpose := "Build option as key=value (repeatable)" }]
  required := ["project", "task"] }

def statusForm : CommandForm := commandForm "status" "Get build status" {
  operands := [⟨"ID", "Build ID", false⟩] }

def cancelForm : CommandForm := commandForm "cancel" "Cancel a build" {
  operands := [⟨"ID", "Build ID to cancel", false⟩] }

def listBuildsForm : CommandForm := commandForm "list-builds" "List builds" {
  options := [
    { name := "status", letter := some 's', valueName := some "STATUS",
      objection := objectionOf BuildStatus.parse, purpose := "Only builds with this status" },
    { name := "limit", letter := some 'l', valueName := some "LIMIT",
      objection := objectionOf readLimit, purpose := "Maximum number of builds to show",
      remarks := [defaultRemark (toString defaultLimit)] }] }

def listWorkersForm : CommandForm := commandForm "list-workers" "List registered workers" {}

def metricsForm : CommandForm := commandForm "metrics" "Show coordinator counters" {}

def helpForm : CommandForm :=
  commandForm "help" "Print this message or the help of the given subcommand(s)" {
    operands := [⟨"COMMAND", "Print help for the subcommand(s)", true⟩]
    inquiries := [] }

def commandForms : List CommandForm :=
  [submitForm, statusForm, cancelForm, listBuildsForm, listWorkersForm, metricsForm, helpForm]

/-- The grammar of the program. Its help tells the address in the environment. -/
def programGrammar (environment : Option String) : Grammar where
  title := programTitle
  purpose := "CLI for the BuildFleet coordinator"
  options := [
    { name := "addr", letter := some 'a', valueName := some "ADDR",
      purpose := "Coordinator address",
      remarks := ["env: BUILDFLEET_ADDR=" ++ environment.getD "", defaultRemark defaultAddress] }]
  commands := commandForms.map fun c => (c.name, c.grammar.purpose)

/-! ## From arguments to commands -/

/-- A value that the grammar has already judged. -/
def valueAs {α : Type} (read : String → Except String α) (p : Parsed) (name : String) : Option α :=
  (p.value? name).bind fun text => (read text).toOption

/-- The request of a submission. Of two options with one name the later counts. -/
def requestOf (p : Parsed) : Request where
  project := (p.value? "project").getD ""
  task := (p.value? "task").getD ""
  priority := (valueAs readPriority p "priority").getD 0
  cacheEnabled := p.has "cache"
  options := Catalog.ofList ((p.valuesOf "option").filterMap fun text => (readOption text).toOption)

/-- The help that is asked for with the names of commands. No command has commands of its own. -/
def helpComplaint (environment : Option String) : List String → Complaint
  | [] => .inquiry ((programGrammar environment).answer .help)
  | name :: rest =>
    match commandForms.find? (·.name == name), rest with
    | none, _ => .unknownCommand name
    | some c, [] => .inquiry (c.grammar.answer .help)
    | some _, more :: _ => .unknownCommand more

def commandOf (environment : Option String) (name : String) (args : List String) :
    Except Complaint Command := do
  match name with
  | "submit" => return .submit (requestOf (← submitForm.grammar.read args))
  | "status" => return .status (String.join (← statusForm.grammar.read args).operands)
  | "cancel" => return .cancel (String.join (← cancelForm.grammar.read args).operands)
  | "list-builds" =>
    let p ← listBuildsForm.grammar.read args
    return .listBuilds (valueAs BuildStatus.parse p "status")
      ((valueAs readLimit p "limit").getD defaultLimit)
  | "list-workers" => let _ ← listWorkersForm.grammar.read args; return .listWorkers
  | "metrics" => let _ ← metricsForm.grammar.read args; return .metrics
  | _ => .error (helpComplaint environment args)

/-- Reads the arguments of the client. What the command is given is judged before the last option in
front of it. -/
def Invocation.ofArgs (environment : Option String) (args : List String) :
    Except Complaint Invocation := do
  let g := programGrammar environment
  let r ← g.readFront args
  match r.parsed.command with
  | some (name, rest) =>
    let command ← commandOf environment name rest
    return ⟨(← g.finish r).value? "addr", command⟩
  | none =>
    let _ ← g.finish r
    .error .missing

/-! ## Calls -/

def listPath (status : Option BuildStatus) (limit : Nat) : String :=
  "/api/builds?limit=" ++ toString limit ++
    match status with
    | some s => "&status=" ++ s.name
    | none => ""

/-- The call that a command makes to the pool at an address. -/
def Command.call (c : Command) (address : String) : HttpCall :=
  let base := baseOf address
  match c with
  | .submit request => ⟨"POST", base ++ "/api/builds", some (encode request)⟩
  | .status id => ⟨"GET", base ++ "/api/builds/" ++ id ++ "/status", none⟩
  | .cancel id => ⟨"DELETE", base ++ "/api/builds/" ++ id, none⟩
  | .listBuilds only limit => ⟨"GET", base ++ listPath only limit, none⟩
  | .listWorkers => ⟨"GET", base ++ "/api/workers", none⟩
  | .metrics => ⟨"GET", base ++ "/api/metrics", none⟩

end BuildPool.CommandLine
