import BuildPool.Event
import BuildPool.Wire.Worker

/-!
# Events on the wire

An event names its kind in a member `type`, which may stand anywhere, or in front of an array of its
fields. An event is read as a whole before its kind is known, so everything in it has to be
readable, and whatever is wrong with it then is its shape.
-/

namespace BuildPool

open BuildPool.Json BuildPool.Time

/-- The member that names the kind. -/
def Event.tag : String := "type"

instance : Encode Event where
  encode
    | e@(.buildStarted build worker task time) => .object [
      (Event.tag, encode e.kind),
      ("build_id", encode build),
      ("worker_id", encode worker),
      ("task", encode task),
      ("timestamp", encode time)]
    | e@(.buildFinished build status duration error time) => .object [
      (Event.tag, encode e.kind),
      ("build_id", encode build),
      ("status", encode status),
      ("duration_ms", encode duration),
      ("error", encode error),
      ("timestamp", encode time)]
    | e@(.workerChanged worker status time) => .object [
      (Event.tag, encode e.kind),
      ("worker_id", encode worker),
      ("status", encode status),
      ("timestamp", encode time)]

namespace Event

/-- How deep an event may be nested. -/
def depthLimit : Nat := 127

/-- A name in an event may also stand in an object with an empty object. -/
def plainName : Json → Json
  | .object [(name, .object [])] => .string name
  | j => j

/-- A status in an event. -/
def status {α : Type} [Decode α] (r : Record) : Except Fault α :=
  match r.lookup "status" with
  | some value => decode (plainName value)
  | none => .error .shape

/-- The fields of an event; in an array none may be missing. -/
def fieldsOf (names : List String) (j : Json) : Except Fault Record := do
  let r ← record names j
  match j with
  | .array items => if items.length = names.length then return r else .error .shape
  | _ => return r

/-- An event of a kind from its fields. -/
def ofFields (kind : String) (j : Json) : Except Fault Event :=
  match kind with
  | "build_started" => do
    let r ← fieldsOf ["build_id", "worker_id", "task", "timestamp"] j
    return .buildStarted (← r.required "build_id") (← r.required "worker_id")
      (← r.required "task") (← r.required "timestamp")
  | "build_finished" => do
    let r ← fieldsOf ["build_id", "status", "duration_ms", "error", "timestamp"] j
    return .buildFinished (← r.required "build_id") (← status r) (← r.required "duration_ms")
      (← r.optional "error") (← r.required "timestamp")
  | "worker_status_changed" => do
    let r ← fieldsOf ["worker_id", "status", "timestamp"] j
    return .workerChanged (← r.required "worker_id") (← status r) (← r.required "timestamp")
  | _ => .error .shape

/-- An event from its kind and its fields. -/
def ofTagged : Json → Except Fault Event
  | .array (.string kind :: items) => ofFields kind (.array items)
  | .object members =>
    match members.filter (·.1 == tag) with
    | [(_, .string kind)] => ofFields kind (.object members)
    | _ => .error .shape
  | _ => .error .shape

end Event

instance : Decode Event where
  decode j :=
    if j.isReadable && j.depth ≤ Event.depthLimit then
      (Event.ofTagged j).mapError fun _ => .shape
    else .error .grammar

end BuildPool
