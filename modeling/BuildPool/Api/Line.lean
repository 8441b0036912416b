import BuildPool.Api.Router
import BuildPool.Simulation.Basic
import BuildPool.Wire.Event

/-!
# Requests in lines

A pool without a network: each line of input is a request in JSON, and each line of output tells the
response and what else was set going, tasks for workers among it.
-/

namespace BuildPool.Api

open BuildPool.Json BuildPool.Time

def HttpRequest.fields : List String := ["method", "target", "content_type", "body"]

/-- A request in JSON. A body is JSON unless another type is given. -/
instance : Decode HttpRequest where
  decode j := do
    let r ← record HttpRequest.fields j
    let body : Option String ← r.optional "body"
    return {
      method := ← r.required "method"
      target := ← r.required "target"
      contentType := ← r.withDefault "content_type" (body.map fun _ => "application/json")
      body := body.getD "" }

instance : Encode Body where
  encode
    | .empty => .string ""
    | .text content => .string content
    | .json value => value

instance : Encode Response where
  encode r := .object [
    ("status", encode r.status), ("type", encode r.contentType), ("body", encode r.body)]

/-- Members of a line that are left out if there is nothing to tell. -/
def listMember (name : String) (items : List Json) : List (String × Json) :=
  if items.isEmpty then [] else [(name, .array items)]

def artifactsBody (artifacts : List String) : Json := .object [("artifacts", encode artifacts)]

def storeLine : String × List String × Dictionary → Json
  | (key, artifacts, metadata) => .array [encode key, artifactsBody artifacts, encode metadata]

def traceMembers (t : Trace) : List (String × Json) :=
  listMember "events" (t.events.map encode) ++ listMember "sent" (t.sent.map encode) ++
    listMember "abandoned" (t.abandoned.map encode) ++
    listMember "lookups" (t.lookups.map encode) ++ listMember "stores" (t.stores.map storeLine)

/-- Answers a line at a time. The scheduler works after each request. -/
def serveLine (s : Simulation) (now : Instant) (line : String) : String × Simulation :=
  match decodeText HttpRequest line with
  | .error f => ((Json.object [("fault", .string f.category)]).compact, s)
  | .ok request =>
    let (response, s) := { s with now }.perform fun p now => respond p now request
    let (trace, s) := s.runScheduler.takeTrace
    ((Json.object (("response", encode response) :: traceMembers trace)).compact, s)

end BuildPool.Api
