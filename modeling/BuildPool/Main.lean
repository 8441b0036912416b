import BuildPool.Api.Line
import BuildPool.Startup.Run
import Std.Time.DateTime

/-!
# The pool as a program

Starts a pool from the arguments, the environment and the snapshot file, answers requests line by
line until the input ends, and writes a last snapshot.
-/

namespace BuildPool.Main

open BuildPool.Time

def currentTime : IO Instant := do
  let t ← Std.Time.Timestamp.now
  let epoch : Instant := ⟨0, 0⟩
  return epoch.addNanos t.toNanosecondsSinceUnixEpoch.toInt

/-- The variables of the environment that are settings. -/
def settingVariables : IO (List (String × String)) := do
  let values ← Startup.settings.mapM fun s => do
    return (← IO.getEnv s.variableName).map fun value => (s.variableName, value)
  return values.filterMap id

/-- What stands under the path of the snapshot file. -/
def fileEntry (path : Option String) : IO Snapshot.FileEntry := do
  match path with
  | none => return .absent
  | some path =>
    try return .file (← IO.FS.readBinFile path)
    catch
      | .noFileOrDirectory .. => return .absent
      | _ => return .directory

/-- Writes a snapshot beside the snapshot file and puts it in its place. -/
def save (path : String) (s : Snapshot) : IO Unit := do
  IO.FS.writeBinFile (path ++ ".tmp") s.toText.toUTF8
  IO.FS.rename (path ++ ".tmp") path

partial def serve (input output : IO.FS.Stream) (s : Simulation) : IO Simulation := do
  let line ← input.getLine
  if line.isEmpty then return s
  let (answer, s) := Api.serveLine s (← currentTime) line
  output.putStrLn answer
  output.flush
  serve input output s

def fail (f : Startup.Failure) : IO UInt32 := do
  match f with
  | .badArguments (.inquiry text) => IO.print text
  | .badArguments c => IO.eprint c.message
  | _ => IO.eprintln (f.kind?.getD "")
  return UInt32.ofNat f.code

def run (args : List String) : IO UInt32 := do
  let given ← settingVariables
  match Startup.readConfig args (fun name => given.lookup name) with
  | .error c => fail (.badArguments c)
  | .ok config =>
    let now ← currentTime
    match Startup.start config (← fileEntry config.statePath) now with
    | .error f => fail f
    | .ok pool =>
      let pool := Startup.firstActs pool now
      let s ← serve (← IO.getStdin) (← IO.getStdout) { pool, now }
      if let some path := config.statePath then
        save path (s.pool.capture (← currentTime))
      return 0

end BuildPool.Main

def main (args : List String) : IO UInt32 := BuildPool.Main.run args
