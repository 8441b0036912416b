import BuildPool.Proofs.Api.Refusals
import BuildPool.Proofs.CommandLine.Answers

/-!
# Calls and replies

A call gets to the pool as a request with the text of its body, and what a client gets of a response
is its status and the text of its body. An operation that succeeds answers with its own body, and
one that fails says why, in words that the client finds.
-/

namespace BuildPool.Api

open BuildPool.Client BuildPool.CommandLine BuildPool.Json BuildPool.Time

/-! ## From calls to requests -/

/-- A call as it gets to a server. JSON is announced, and sent without blanks. -/
def HttpRequest.ofCall (c : HttpCall) : HttpRequest where
  method := c.method
  target := c.address
  contentType := c.body.map fun _ => "application/json"
  body := c.body.elim "" Json.compact

theorem decodeFront_compact {α : Type} [Decode α] {j : Json} (hj : j.Writable) :
    decodeFront α j.compact = decode j := by
  simp only [decodeFront, readValue_text blank_compactLayout hj 0 (compact_toList j 0)]

/-- A body is read as what it says, unless it is too long. -/
theorem readBody_ofCall {α : Type} [Decode α] {c : HttpCall} {j : Json} (hbody : c.body = some j)
    (hj : j.Writable) :
    readBody α (HttpRequest.ofCall c) =
      if bodyLimit < j.compact.utf8ByteSize then .error .longBody
      else (decode j).mapError .badBody := by
  have htype : isJsonType "application/json" = true := by decide +kernel
  simp only [readBody, HttpRequest.ofCall, hbody, Option.map_some, Option.any_some, htype,
    Option.elim_some, decodeFront_compact hj]
  rfl

/-! ## From responses to replies -/

/-- The text of a body. JSON is sent without blanks. -/
def Body.content : Body → String
  | .empty => ""
  | .text content => content
  | .json value => value.compact

/-- A response as it gets to a client. -/
def Response.reply (r : Response) : Reply := ⟨r.status, r.body.content⟩

theorem read_jsonResponse {α : Type} [Decode α] {status : Nat} {j : Json} {a : α}
    (hstatus : status ≠ 204 ∧ status ≠ 304) (hj : j.Writable) (h : decode j = .ok a) :
    (jsonResponse status j).reply.read α = .ok a := by
  have hcontent : (jsonResponse status j).reply.content = j.compact :=
    if_neg (by simpa [jsonResponse, Response.reply] using hstatus)
  rw [Reply.read, hcontent, decodeText_of_ofText? (ofText?_compact hj)]
  exact h

/-! ## Refusals -/

theorem le_statusOf (refusal : Refusal) : 400 ≤ statusOf refusal := by
  cases refusal <;> simp [statusOf]

theorem response_eq {f : Failure} (h : f ≠ .badPath) :
    ∃ status, 400 ≤ status ∧ f.response = jsonResponse status (errorBody f.message) := by
  cases f with
  | badPath => exact absurd rfl h
  | refused refusal => exact ⟨statusOf refusal, le_statusOf refusal, rfl⟩
  | badQuery | badStatus | badMediaType | longBody | badBody => exact ⟨400, le_rfl, rfl⟩

theorem le_status_response (f : Failure) : 400 ≤ f.response.status := by
  by_cases h : f = .badPath
  · rw [h]
    exact le_rfl
  · obtain ⟨status, hstatus, heq⟩ := response_eq h
    rw [heq]
    exact hstatus

/-- The client reads why the pool refuses. -/
theorem read_response {f : Failure} (h : f ≠ .badPath) :
    f.response.reply.read ErrorAnswer = .ok ⟨f.message⟩ := by
  obtain ⟨status, hstatus, heq⟩ := response_eq h
  rw [heq]
  exact read_jsonResponse ⟨by omega, by omega⟩ ⟨trivial, trivial⟩ (decode_errorBody f.message)

/-- A part of the path that is no text is refused in plain words, which are no JSON. -/
theorem refusalReason_response (f : Failure) : refusalReason f.response.reply = f.message := by
  by_cases h : f = .badPath
  · subst h
    cbv
  · rw [refusalReason, read_response h]

theorem isSuccess_response (f : Failure) : f.response.reply.isSuccess = false := by
  have hstatus := le_status_response f
  change (decide (200 ≤ f.response.status) && decide (f.response.status < 300)) = false
  simp only [Bool.and_eq_false_imp, decide_eq_true_eq, decide_eq_false_iff_not]
  omega

theorem readAnswer_response (α : Type) [Decode α] (f : Failure) :
    readAnswer α (some f.response.reply) = .error (.refused f.response.status f.message) := by
  simp only [readAnswer, isSuccess_response, refusalReason_response]
  rfl

/-- A response that is an error has no body, or it is that of a failure. -/
def Response.Explained (response : Response) : Prop :=
  400 ≤ response.status → response.body = .empty ∨ ∃ f : Failure, response = f.response

theorem Response.explained_of_lt {response : Response} (h : response.status < 400) :
    response.Explained :=
  fun hstatus => absurd hstatus (Nat.not_le.2 h)

/-- What an operation answers if it does not fail is no error. -/
def Succeeds (result : Except Failure (Response × Pool)) : Prop :=
  ∀ answer, result = .ok answer → answer.1.status < 400

theorem succeeds_ok {answer : Response × Pool} (h : answer.1.status < 400) :
    Succeeds (.ok answer) := by
  rintro answer' ⟨⟩
  exact h

theorem succeeds_bind {α : Type} {x : Except Failure α} {f : α → Except Failure (Response × Pool)}
    (h : ∀ a, Succeeds (f a)) : Succeeds (x >>= f) := by
  intro answer hanswer
  obtain ⟨a, -, hanswer⟩ := Refusal.of_bind_eq_ok hanswer
  exact h a answer hanswer

section Operations

variable {p : Pool} {now : Instant} {r : HttpRequest} {route : Route} {id query : String}

theorem explained_finish {result : Except Failure (Response × Pool)} (h : Succeeds result) :
    (finish p result).1.Explained := by
  cases result with
  | error f => exact fun _ => .inr ⟨f, rfl⟩
  | ok answer => exact Response.explained_of_lt (h answer rfl)

theorem succeeds_cancelBuild : Succeeds (cancelBuild p now id) :=
  succeeds_bind fun _ => succeeds_bind fun _ => succeeds_ok (by decide : 200 < 400)

theorem explained_post? {answer : Response × Pool} (h : post? p now route r = some answer) :
    answer.1.Explained := by
  have h200 : 200 < 400 := by decide
  cases route with
  | builds =>
    cases h
    have h202 : 202 < 400 := by decide
    exact explained_finish (succeeds_bind fun _ => succeeds_bind fun _ => succeeds_ok h202)
  | buildProgress id =>
    cases h
    exact explained_finish
      (succeeds_bind fun _ => succeeds_bind fun _ => succeeds_bind fun _ => succeeds_ok h200)
  | buildCompletion id =>
    cases h
    exact explained_finish
      (succeeds_bind fun _ => succeeds_bind fun _ => succeeds_bind fun _ => succeeds_ok h200)
  | workers =>
    cases h
    have h201 : 201 < 400 := by decide
    exact explained_finish (succeeds_bind fun _ => succeeds_bind fun _ => succeeds_ok h201)
  | heartbeat =>
    cases h
    exact explained_finish (succeeds_bind fun _ => succeeds_bind fun _ => succeeds_ok h200)
  | build | buildStatus | metrics | health | exposition => cases h

/-! ## What is answered -/

theorem submitBuild_eq_ok {answer : Response × Pool} (h : submitBuild p now r = .ok answer) :
    ∃ request b, readBody Request r = .ok request ∧ p.submit now request = .ok (b, answer.2) ∧
      answer.1 = jsonResponse 202 (submittedBody b) := by
  obtain ⟨request, hrequest, h⟩ := Refusal.of_bind_eq_ok h
  obtain ⟨⟨b, p'⟩, hb, h⟩ := Refusal.of_bind_eq_ok h
  cases h
  exact ⟨request, b, hrequest, eq_ok_of_orRefused hb, rfl⟩

theorem cancelBuild_eq_ok {answer : Response × Pool} (h : cancelBuild p now id = .ok answer) :
    ∃ build c, readId id = .ok build ∧ p.cancel now build = .ok (c, answer.2) ∧
      answer.1 = jsonResponse 200 (cancelledBody c) := by
  obtain ⟨build, hbuild, h⟩ := Refusal.of_bind_eq_ok h
  obtain ⟨⟨c, p'⟩, hc, h⟩ := Refusal.of_bind_eq_ok h
  cases h
  exact ⟨build, c, hbuild, eq_ok_of_orRefused hc, rfl⟩

theorem listBuilds_eq_ok {response : Response} (h : listBuilds p query = .ok response) :
    ∃ q status, ListQuery.ofText? query = some q ∧ readStatus q.status = .ok status ∧
      response = jsonResponse 200 (buildListBody (p.list status q.limit)) := by
  unfold listBuilds at h
  split at h
  · cases h
  · rename_i q hq
    obtain ⟨status, hstatus, h⟩ := Refusal.of_bind_eq_ok h
    cases h
    exact ⟨q, status, hq, hstatus, rfl⟩

theorem getStatus_eq_ok {response : Response} (h : getStatus p id = .ok response) :
    ∃ build b, readId id = .ok build ∧ p.status build = .ok b ∧
      response = jsonResponse 200 (statusBody b) := by
  obtain ⟨build, hbuild, h⟩ := Refusal.of_bind_eq_ok h
  obtain ⟨b, hb, h⟩ := Refusal.of_bind_eq_ok h
  cases h
  exact ⟨build, b, hbuild, eq_ok_of_orRefused hb, rfl⟩

theorem getBuild_eq_ok {response : Response} (h : getBuild p id = .ok response) :
    ∃ build b, readId id = .ok build ∧ p.status build = .ok b ∧
      response = jsonResponse 200 (encode b) := by
  obtain ⟨build, hbuild, h⟩ := Refusal.of_bind_eq_ok h
  obtain ⟨b, hb, h⟩ := Refusal.of_bind_eq_ok h
  cases h
  exact ⟨build, b, hbuild, eq_ok_of_orRefused hb, rfl⟩

/-- The answer of a resource that is read, or why it cannot be. -/
def answerOf : Except Failure Response → Response
  | .ok response => response
  | .error f => f.response

theorem read?_builds : read? p .builds query = some (answerOf (listBuilds p query)) := by
  dsimp only [read?]
  cases listBuilds p query <;> rfl

theorem read?_build : read? p (.build id) query = some (answerOf (getBuild p id)) := by
  dsimp only [read?]
  cases getBuild p id <;> rfl

theorem read?_buildStatus :
    read? p (.buildStatus id) query = some (answerOf (getStatus p id)) := by
  dsimp only [read?]
  cases getStatus p id <;> rfl

theorem explained_answerOf {result : Except Failure Response}
    (h : ∀ response, result = .ok response → response.status < 400) :
    (answerOf result).Explained := by
  cases result with
  | error f => exact fun _ => .inr ⟨f, rfl⟩
  | ok response => exact Response.explained_of_lt (h response rfl)

theorem explained_read? {response : Response} (h : read? p route query = some response) :
    response.Explained := by
  have h200 : 200 < 400 := by decide
  cases route with
  | builds =>
    rw [read?_builds] at h
    cases h
    refine explained_answerOf fun response hr => ?_
    obtain ⟨-, -, -, -, rfl⟩ := listBuilds_eq_ok hr
    exact h200
  | build id =>
    rw [read?_build] at h
    cases h
    refine explained_answerOf fun response hr => ?_
    obtain ⟨-, -, -, -, rfl⟩ := getBuild_eq_ok hr
    exact h200
  | buildStatus id =>
    rw [read?_buildStatus] at h
    cases h
    refine explained_answerOf fun response hr => ?_
    obtain ⟨-, -, -, -, rfl⟩ := getStatus_eq_ok hr
    exact h200
  | workers | metrics | health | exposition =>
    cases h
    exact Response.explained_of_lt h200
  | buildProgress | buildCompletion | heartbeat => cases h

theorem explained_perform? {answer : Response × Pool}
    (h : perform? p now route query r = some answer) : answer.1.Explained := by
  unfold perform? at h
  split at h
  · obtain ⟨response, hresponse, rfl⟩ := Option.map_eq_some_iff.1 h
    exact explained_read? hresponse
  · obtain ⟨response, hresponse, rfl⟩ := Option.map_eq_some_iff.1 h
    exact fun _ => .inl rfl
  · exact explained_post? h
  · cases h
    exact explained_finish succeeds_cancelBuild
  · cases h

/-- Every error with a body is the answer to a failure. -/
theorem explained_respond (p : Pool) (now : Instant) (r : HttpRequest) :
    (respond p now r).1.Explained := by
  unfold respond
  split
  · exact fun _ => .inl rfl
  · dsimp only
    cases Route.ofPath? (splitTarget r.target).1 with
    | none => exact fun _ => .inl rfl
    | some route =>
      dsimp only
      cases hperform : perform? p now route (splitTarget r.target).2 r with
      | none => exact fun _ => .inl rfl
      | some answer => exact explained_perform? hperform

/-! ## By method and route -/

/-- A request with this method for this resource. -/
structure HttpRequest.Asks (r : HttpRequest) (method : String) (route : Route) : Prop where
  method : r.method = method
  route : Route.ofPath? (splitTarget r.target).1 = some route

theorem respond_of_asks {method : String} (h : r.Asks method route) (hmethod : method ≠ "OPTIONS") :
    respond p now r =
      (perform? p now route (splitTarget r.target).2 r).getD (emptyResponse 405, p) := by
  have hdispatch : ¬ (r.method == "OPTIONS") = true := by
    rw [h.method, beq_iff_eq]
    exact hmethod
  unfold respond
  rw [if_neg hdispatch]
  dsimp only
  rw [h.route]

theorem respond_get (h : r.Asks "GET" route) {response : Response}
    (hread : read? p route (splitTarget r.target).2 = some response) :
    respond p now r = (response, p) := by
  have hperform : perform? p now route (splitTarget r.target).2 r = some (response, p) := by
    unfold perform?
    rw [h.method, hread]
    rfl
  rw [respond_of_asks h (by decide), hperform]
  rfl

theorem respond_submit (h : r.Asks "POST" .builds) :
    respond p now r = finish p (submitBuild p now r) := by
  have hperform : perform? p now .builds (splitTarget r.target).2 r =
      some (finish p (submitBuild p now r)) := by
    unfold perform?
    rw [h.method]
    rfl
  rw [respond_of_asks h (by decide), hperform]
  rfl

theorem respond_cancel (h : r.Asks "DELETE" (.build id)) :
    respond p now r = finish p (cancelBuild p now id) := by
  have hperform : perform? p now (.build id) (splitTarget r.target).2 r =
      some (finish p (cancelBuild p now id)) := by
    unfold perform?
    rw [h.method]
    rfl
  rw [respond_of_asks h (by decide), hperform]
  rfl

theorem exists_of_isSuccess_finish {result : Except Failure (Response × Pool)}
    (h : (finish p result).1.reply.isSuccess = true) :
    ∃ answer, result = .ok answer ∧ finish p result = answer := by
  cases result with
  | error f =>
    rw [finish, isSuccess_response] at h
    cases h
  | ok answer => exact ⟨answer, rfl, rfl⟩

theorem exists_of_isSuccess_answerOf {result : Except Failure Response}
    (h : (answerOf result).reply.isSuccess = true) :
    ∃ response, result = .ok response ∧ answerOf result = response := by
  cases result with
  | error f =>
    rw [answerOf, isSuccess_response] at h
    cases h
  | ok response => exact ⟨response, rfl, rfl⟩

end Operations

end BuildPool.Api
