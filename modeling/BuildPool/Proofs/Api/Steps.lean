import BuildPool.Api.Router
import BuildPool.Proofs.Pool.Steps

/-!
# Requests step by step

The interface over HTTP where each request works on the pool in place. A request that fails gets its
answer from the failure, and the pool stays as the steps before the failure left it.
-/

namespace BuildPool.Api

open BuildPool.Json BuildPool.Time

namespace InPlace

/-! ## Operations -/

/-- Reads what an operation needs, performs it and answers. -/
def handle {ρ α : Type} (read : Except Failure ρ) (operation : ρ → Steps Refusal Pool α)
    (answer : α → Response) : Steps Failure Pool Response := do
  let request ← Steps.look fun _ => read
  let a ← (operation request).because .refused
  return answer a

def submitBuild (now : Instant) (r : HttpRequest) : Steps Failure Pool Response :=
  handle (readBody Request r) (Pool.InPlace.submit now) fun b =>
    jsonResponse 202 (submittedBody b)

def cancelBuild (now : Instant) (id : String) : Steps Failure Pool Response :=
  handle (readId id) (Pool.InPlace.cancel now) fun c => jsonResponse 200 (cancelledBody c)

def reportProgress (now : Instant) (id : String) (r : HttpRequest) :
    Steps Failure Pool Response := do
  let id ← Steps.look fun _ => readId id
  handle (readBody ProgressBody r)
    (fun body => Pool.InPlace.progress now id body.worker body.progress)
    fun accepted => jsonResponse 200 (acceptedBody accepted)

def reportCompletion (now : Instant) (id : String) (r : HttpRequest) :
    Steps Failure Pool Response := do
  let id ← Steps.look fun _ => readId id
  handle (readBody Report r) (Pool.InPlace.complete now id) fun accepted =>
    jsonResponse 200 (acceptedBody accepted)

def registerWorker (now : Instant) (r : HttpRequest) : Steps Failure Pool Response :=
  handle (readBody WorkerInfo r) (Pool.InPlace.register now) fun w =>
    jsonResponse 201 (registeredBody w)

def heartbeat (now : Instant) (r : HttpRequest) : Steps Failure Pool Response :=
  handle (readBody HeartbeatBody r)
    (fun body => Pool.InPlace.heartbeat now body.worker body.usage)
    fun _ => jsonResponse 200 successBody

/-! ## Dispatch -/

/-- The response of an operation, and the pool as it leaves it, whether it fails or not. -/
def answer (p : Pool) (operation : Steps Failure Pool Response) : Response × Pool :=
  match operation.exec p with
  | (.ok response, p') => (response, p')
  | (.error f, p') => (f.response, p')

def post? (now : Instant) (route : Route) (r : HttpRequest) :
    Option (Steps Failure Pool Response) :=
  match route with
  | .builds => some (submitBuild now r)
  | .buildProgress id => some (reportProgress now id r)
  | .buildCompletion id => some (reportCompletion now id r)
  | .workers => some (registerWorker now r)
  | .heartbeat => some (heartbeat now r)
  | .build _ | .buildStatus _ | .metrics | .health | .exposition => none

/-- A resource that is read has no means to write. -/
def perform? (p : Pool) (now : Instant) (route : Route) (query : String) (r : HttpRequest) :
    Option (Response × Pool) :=
  match r.method, route with
  | "GET", _ => (read? p route query).map (·, p)
  | "HEAD", _ => (read? p route query).map fun response => ({ response with body := .empty }, p)
  | "POST", _ => (post? now route r).map (answer p)
  | "DELETE", .build id => some (answer p (cancelBuild now id))
  | _, _ => none

def serve (p : Pool) (now : Instant) (r : HttpRequest) : Response × Pool :=
  if r.method == "OPTIONS" then (emptyResponse 200, p)
  else
    let (path, query) := splitTarget r.target
    match Route.ofPath? path with
    | none => (emptyResponse 404, p)
    | some route => (perform? p now route query r).getD (emptyResponse 405, p)

/-! ## What they come to -/

theorem does_handle {ρ α : Type} {operation : ρ → Steps Refusal Pool α}
    {atOnce : ρ → Pool → Except Refusal (α × Pool)} (read : Except Failure ρ)
    (answer : α → Response) (h : ∀ request, (operation request).Does (atOnce request)) :
    (handle read operation answer).Does fun p => read >>= fun request =>
      orRefused (atOnce request p) >>= fun a => return (answer a.1, a.2) := by
  apply Steps.Does.look
  intro request p _
  apply Steps.settle_bind (Steps.settle_self (Steps.settle_because Failure.refused (h request p)))
  intro a _
  rfl

variable (p : Pool) (now : Instant) (id query : String) (route : Route) (r : HttpRequest)

theorem does_submitBuild : (submitBuild now r).Does (Api.submitBuild · now r) :=
  does_handle _ _ (Pool.InPlace.does_submit now)

theorem does_cancelBuild : (cancelBuild now id).Does (Api.cancelBuild · now id) :=
  does_handle _ _ (Pool.InPlace.does_cancel now)

theorem does_reportProgress : (reportProgress now id r).Does (Api.reportProgress · now id r) := by
  apply Steps.Does.look
  intro id p _
  exact does_handle _ (fun accepted => jsonResponse 200 (acceptedBody accepted))
    (fun body : ProgressBody => Pool.InPlace.does_progress now id body.worker body.progress) p

theorem does_reportCompletion :
    (reportCompletion now id r).Does (Api.reportCompletion · now id r) := by
  apply Steps.Does.look
  intro id p _
  exact does_handle _ (fun accepted => jsonResponse 200 (acceptedBody accepted))
    (Pool.InPlace.does_complete now id) p

theorem does_registerWorker : (registerWorker now r).Does (Api.registerWorker · now r) :=
  does_handle _ _ (Pool.InPlace.does_register now)

theorem does_heartbeat : (heartbeat now r).Does (Api.heartbeat · now r) := by
  intro p
  have hdoes := does_handle (readBody HeartbeatBody r) (fun _ => jsonResponse 200 successBody)
    (fun body => Pool.InPlace.does_heartbeat now body.worker body.usage) p
  refine hdoes.trans (congrArg (Steps.settle p) ?_)
  unfold Api.heartbeat
  cases readBody HeartbeatBody r with
  | error f => rfl
  | ok body =>
    change (orRefused ((p.heartbeat now body.worker body.usage).map ((), ·)) >>= fun a => _) =
      (orRefused (p.heartbeat now body.worker body.usage) >>= fun p => _)
    cases p.heartbeat now body.worker body.usage with
    | error e => rfl
    | ok p' => rfl

theorem answer_of_does {operation : Steps Failure Pool Response}
    {atOnce : Pool → Except Failure (Response × Pool)} (h : operation.Does atOnce) :
    answer p operation = finish p (atOnce p) := by
  unfold answer
  rw [h p]
  cases atOnce p with
  | error f => rfl
  | ok a => rfl

theorem map_answer_post? : (post? now route r).map (answer p) = Api.post? p now route r := by
  cases route with
  | builds => exact congrArg some (answer_of_does p (does_submitBuild now r))
  | buildProgress id => exact congrArg some (answer_of_does p (does_reportProgress now id r))
  | buildCompletion id => exact congrArg some (answer_of_does p (does_reportCompletion now id r))
  | workers => exact congrArg some (answer_of_does p (does_registerWorker now r))
  | heartbeat => exact congrArg some (answer_of_does p (does_heartbeat now r))
  | build | buildStatus | metrics | health | exposition => rfl

theorem perform?_eq : perform? p now route query r = Api.perform? p now route query r := by
  unfold perform?
  simp only [map_answer_post?, answer_of_does p (does_cancelBuild now _)]
  rfl

/-- Step by step, every request gets the same answer and leaves the same pool. -/
theorem serve_eq_respond : serve p now r = respond p now r := by
  unfold serve respond
  split
  · rfl
  · dsimp only
    cases Route.ofPath? (splitTarget r.target).1 with
    | none => rfl
    | some route =>
      exact congrArg (·.getD (emptyResponse 405, p)) (perform?_eq p now _ route r)

end InPlace

end BuildPool.Api
