import BuildPool.Wire.Snapshot

/-!
# The snapshot file

A snapshot is written whole to a second file beside the snapshot file, which then takes its place in
one stroke. Reading looks at the snapshot file alone, so a save that is cut off is not seen.
-/

namespace BuildPool

open BuildPool.Json

namespace Snapshot

/-! ## Contents -/

def toText (s : Snapshot) : String := (encode s).pretty

/-- What stands under a path. -/
inductive FileEntry
  | absent
  | directory
  | file (content : ByteArray)

inductive LoadFailure
  /-- There is something, and it is not a file. -/
  | unreadable
  | undecodable (fault : Fault)
  | unsupportedVersion (found : UInt32)
deriving DecidableEq, Repr

def LoadFailure.message : LoadFailure → String
  | unreadable => "Snapshot I/O failed"
  | undecodable _ => "Snapshot is not valid JSON"
  | unsupportedVersion found =>
    "Snapshot version " ++ toString found ++ " is newer than supported version " ++
      toString currentVersion

def ofBytes (content : ByteArray) : Except LoadFailure Snapshot := do
  let text ← match String.fromUTF8? content with
    | some text => pure text
    | none => .error (.undecodable .grammar)
  let s ← (decodeText Snapshot text).mapError .undecodable
  if currentVersion < s.version then .error (.unsupportedVersion s.version) else return s

/-- The snapshot under a path. Nothing there means a start from nothing. -/
def load : FileEntry → Except LoadFailure (Option Snapshot)
  | .absent => .ok none
  | .directory => .error .unreadable
  | .file content => (ofBytes content).map some

/-! ## Saving -/

/-- The snapshot file and the second file, each with its content if it is there. -/
structure Disk where
  current : Option ByteArray := none
  temporary : Option ByteArray := none

/-- How far a save came. -/
inductive Progress
  | notBegun
  /-- The second file was emptied, and this many bytes were written to it. -/
  | written (count : Nat)
  | done
deriving DecidableEq, Repr

namespace Disk

/-- The first bytes of a content. -/
def front (count : Nat) (content : ByteArray) : ByteArray := content.extract 0 count

/-- The files after a save of some bytes that came so far. -/
def replace (d : Disk) (content : ByteArray) : Progress → Disk
  | .notBegun => d
  | .written count => { d with temporary := some (front count content) }
  | .done => ⟨some content, none⟩

/-- The files after a save that came so far. -/
def save (d : Disk) (s : Snapshot) (progress : Progress) : Disk :=
  d.replace s.toText.toUTF8 progress

/-- The snapshot file as it is found at a start. -/
def entry (d : Disk) : FileEntry :=
  match d.current with
  | none => .absent
  | some content => .file content

def fileCount (d : Disk) : Nat := [d.current, d.temporary].countP Option.isSome

/-- A save that was cut off leaves the snapshot file alone. -/
theorem entry_save_written (d : Disk) (s : Snapshot) (count : Nat) :
    (d.save s (.written count)).entry = d.entry := rfl

end Disk

end Snapshot

end BuildPool
