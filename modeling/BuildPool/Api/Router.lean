import BuildPool.Api.MediaType
import BuildPool.Api.Message
import BuildPool.Api.Query
import BuildPool.Pool.Builds
import BuildPool.Pool.Workers

/-!
# The interface over HTTP

A request is matched to a route by its path and to an operation by its method. The operation reads
what it needs from the path, the query and the body, in this order, and its answer or refusal
becomes a response.
-/

namespace BuildPool.Api

open BuildPool.Json BuildPool.Text BuildPool.Time

/-! ## Requests and responses -/

structure HttpRequest where
  method : String
  /-- Path and query as they stand in the request line. -/
  target : String
  contentType : Option String := none
  body : String := ""
deriving DecidableEq, Repr

inductive Body
  | empty
  | text (content : String)
  | json (value : Json)

structure Response where
  status : Nat
  contentType : Option String
  body : Body

def jsonResponse (status : Nat) (value : Json) : Response :=
  ⟨status, some "application/json", .json value⟩

def emptyResponse (status : Nat) : Response := ⟨status, none, .empty⟩

/-! ## Why a request fails -/

inductive Failure
  /-- A part of the path is no text. -/
  | badPath
  | badQuery
  | badStatus (message : String)
  /-- The body is not announced as JSON. -/
  | badMediaType
  | longBody
  | badBody (fault : Fault)
  | refused (refusal : Refusal)
deriving DecidableEq, Repr

def statusOf : Refusal → Nat
  | .invalidRequest _ => 400
  | .unknownBuild _ => 404
  | .unknownWorker _ => 404
  | .duplicateWorker _ => 409
  | .invalidTransition .. => 409
  | .capacityExceeded .. => 500

/-- The words of a failure. Where a query or a body cannot be read, the library that reads it goes
on with the place and the reason; only its first words, which are always the same, are kept. -/
def Failure.message : Failure → String
  | badPath => "Invalid URL: Invalid UTF-8 in \x60id\x60"
  | badQuery => "Failed to deserialize query string"
  | badStatus message => message
  | badMediaType => "Expected request with \x60Content-Type: application/json\x60"
  | longBody => "Failed to buffer the request body"
  | badBody .shape => "Failed to deserialize the JSON body into the target type"
  | badBody .grammar => "Failed to parse the request body as JSON"
  | refused refusal => refusal.message

def Failure.response : Failure → Response
  | badPath => ⟨400, some "text/plain; charset=utf-8", .text Failure.badPath.message⟩
  | refused refusal => jsonResponse (statusOf refusal) (errorBody refusal.message)
  | f => jsonResponse 400 (errorBody f.message)

/-! ## Routes -/

/-- The resources that have an address. Ids are as they stand in the path. -/
inductive Route
  | builds
  | build (id : String)
  | buildStatus (id : String)
  | buildProgress (id : String)
  | buildCompletion (id : String)
  | workers
  | heartbeat
  | metrics
  | health
  | exposition
deriving DecidableEq, Repr

/-- What the path of a build's own resources ends in. -/
def Route.ofPart? (id : String) : String → Option Route
  | "status" => some (.buildStatus id)
  | "progress" => some (.buildProgress id)
  | "complete" => some (.buildCompletion id)
  | _ => none

/-- The route of a path, given in parts between the slashes. An id at the end is not empty. -/
def Route.ofParts? : List String → Option Route
  | ["", "api", "builds"] => some .builds
  | ["", "api", "builds", id] => if id == "" then none else some (.build id)
  | ["", "api", "builds", id, part] => Route.ofPart? id part
  | ["", "api", "workers"] => some .workers
  | ["", "api", "workers", "heartbeat"] => some .heartbeat
  | ["", "api", "metrics"] => some .metrics
  | ["", "health"] => some .health
  | ["", "metrics"] => some .exposition
  | _ => none

def isSchemeChar (c : Char) : Bool := c.isAlphanum || ['+', '-', '.', '~'].contains c

/-- What follows the scheme and the server in a full address; nothing for any other text. -/
def behindServer : List Char → Option (List Char)
  | ':' :: '/' :: '/' :: rest => some (rest.dropWhile fun c => c != '/' && c != '?' && c != '#')
  | c :: rest => if isSchemeChar c then behindServer rest else none
  | [] => none

/-- Path, query and fragment of a target, which may be a full address. -/
def resourceOf (target : String) : List Char := (behindServer target.toList).getD target.toList

/-- Path and query of a target; a fragment does not count. -/
def splitTarget (target : String) : String × String :=
  let (resource, _) := cut '#' (resourceOf target)
  let (path, query) := cut '?' resource
  (String.ofList path, String.ofList (query.getD []))

def Route.ofPath? (path : String) : Option Route :=
  Route.ofParts? ((splitAt '/' path.toList).map String.ofList)

/-! ## Reading requests -/

def readId (part : String) : Except Failure BuildId :=
  match decodePathPart? part with
  | some id => .ok ⟨id⟩
  | none => .error .badPath

/-- The value at the beginning of a body; what follows it does not matter. -/
def decodeFront (α : Type) [Decode α] (text : String) : Except Fault α :=
  let chars := text.toList
  match readValue (2 * chars.length + 2) chars with
  | some (j, _) => decode j
  | none => .error .grammar

def bodyLimit : Nat := 2097152

def readBody (α : Type) [Decode α] (r : HttpRequest) : Except Failure α :=
  if !r.contentType.any isJsonType then .error .badMediaType
  else if bodyLimit < r.body.utf8ByteSize then .error .longBody
  else (decodeFront α r.body).mapError .badBody

def orRefused {α : Type} (e : Except Refusal α) : Except Failure α := e.mapError .refused

/-! ## Operations -/

def submitBuild (p : Pool) (now : Instant) (r : HttpRequest) :
    Except Failure (Response × Pool) := do
  let request ← readBody Request r
  let (b, p) ← orRefused (p.submit now request)
  return (jsonResponse 202 (submittedBody b), p)

def readStatus (text : Option String) : Except Failure (Option BuildStatus) :=
  match text with
  | none => .ok none
  | some text => ((BuildStatus.parse text).map some).mapError .badStatus

def listBuilds (p : Pool) (query : String) : Except Failure Response := do
  match ListQuery.ofText? query with
  | none => .error .badQuery
  | some q =>
    let status ← readStatus q.status
    return jsonResponse 200 (buildListBody (p.list status q.limit))

def getBuild (p : Pool) (id : String) : Except Failure Response := do
  let b ← orRefused (p.status (← readId id))
  return jsonResponse 200 (encode b)

def getStatus (p : Pool) (id : String) : Except Failure Response := do
  let b ← orRefused (p.status (← readId id))
  return jsonResponse 200 (statusBody b)

def cancelBuild (p : Pool) (now : Instant) (id : String) : Except Failure (Response × Pool) := do
  let (c, p) ← orRefused (p.cancel now (← readId id))
  return (jsonResponse 200 (cancelledBody c), p)

def reportProgress (p : Pool) (now : Instant) (id : String) (r : HttpRequest) :
    Except Failure (Response × Pool) := do
  let id ← readId id
  let body ← readBody ProgressBody r
  let (accepted, p) ← orRefused (p.progress now id body.worker body.progress)
  return (jsonResponse 200 (acceptedBody accepted), p)

def reportCompletion (p : Pool) (now : Instant) (id : String) (r : HttpRequest) :
    Except Failure (Response × Pool) := do
  let id ← readId id
  let report ← readBody Report r
  let (accepted, p) ← orRefused (p.complete now id report)
  return (jsonResponse 200 (acceptedBody accepted), p)

def registerWorker (p : Pool) (now : Instant) (r : HttpRequest) :
    Except Failure (Response × Pool) := do
  let info ← readBody WorkerInfo r
  let (w, p) ← orRefused (p.register now info)
  return (jsonResponse 201 (registeredBody w), p)

def heartbeat (p : Pool) (now : Instant) (r : HttpRequest) : Except Failure (Response × Pool) := do
  let body ← readBody HeartbeatBody r
  let p ← orRefused (p.heartbeat now body.worker body.usage)
  return (jsonResponse 200 successBody, p)

def expositionType : String := "text/plain; version=0.0.4"

def metrics (p : Pool) : Metrics := Metrics.collect p.ledger p.roster

/-! ## Dispatch -/

/-- The response of an operation, and the pool after it. A failure leaves the pool as it is. -/
def finish (p : Pool) (result : Except Failure (Response × Pool)) : Response × Pool :=
  match result with
  | .ok answer => answer
  | .error f => (f.response, p)

/-- The answer of a resource that is only read, if it can be. -/
def read? (p : Pool) (route : Route) (query : String) : Option Response :=
  let answer (result : Except Failure Response) : Option Response :=
    match result with
    | .ok response => some response
    | .error f => some f.response
  match route with
  | .builds => answer (listBuilds p query)
  | .build id => answer (getBuild p id)
  | .buildStatus id => answer (getStatus p id)
  | .workers => some (jsonResponse 200 (workerListBody p.workers))
  | .metrics => some (jsonResponse 200 (encode (metrics p)))
  | .health => some (jsonResponse 200 healthBody)
  | .exposition => some ⟨200, some expositionType, .text (metrics p).exposition⟩
  | .buildProgress _ | .buildCompletion _ | .heartbeat => none

/-- The operation that a resource performs on a posted body, if it performs one. -/
def post? (p : Pool) (now : Instant) (route : Route) (r : HttpRequest) :
    Option (Response × Pool) :=
  match route with
  | .builds => some (finish p (submitBuild p now r))
  | .buildProgress id => some (finish p (reportProgress p now id r))
  | .buildCompletion id => some (finish p (reportCompletion p now id r))
  | .workers => some (finish p (registerWorker p now r))
  | .heartbeat => some (finish p (heartbeat p now r))
  | .build _ | .buildStatus _ | .metrics | .health | .exposition => none

/-- The operation of a method on a resource, if it has this method. -/
def perform? (p : Pool) (now : Instant) (route : Route) (query : String) (r : HttpRequest) :
    Option (Response × Pool) :=
  match r.method, route with
  | "GET", _ => (read? p route query).map (·, p)
  | "HEAD", _ => (read? p route query).map fun response => ({ response with body := .empty }, p)
  | "POST", _ => post? p now route r
  | "DELETE", .build id => some (finish p (cancelBuild p now id))
  | _, _ => none

/-- Answers a request. Every path allows every method to ask for its options. -/
def respond (p : Pool) (now : Instant) (r : HttpRequest) : Response × Pool :=
  if r.method == "OPTIONS" then (emptyResponse 200, p)
  else
    let (path, query) := splitTarget r.target
    match Route.ofPath? path with
    | none => (emptyResponse 404, p)
    | some route => (perform? p now route query r).getD (emptyResponse 405, p)

end BuildPool.Api
