import BuildPool.Proofs.Api.Replies
import BuildPool.Proofs.CommandLine.Submission
import BuildPool.Proofs.Pool.Books
import BuildPool.Proofs.Pool.Captured
import BuildPool.Proofs.Roster.Coherence
import Mathlib.Data.String.Basic

/-!
# Agreement of client and pool

Whatever a pool answers, its client reads without a fault, as what the pool put there: numbers as
their decimals are read, a refusal as its words. And what a client is told to submit is what the
pool reads of it.
-/

namespace BuildPool

open BuildPool.Api BuildPool.CommandLine BuildPool.Json BuildPool.Number BuildPool.Time

/-! ## Figures in words -/

namespace Roster

variable {r : Roster}

theorem countOf_le_size (r : Roster) (status : WorkerStatus) : r.countOf status ≤ r.size :=
  List.countP_le_length

theorem inWords_counts (hr : r.Sound) (hsize : r.size < UInt64.size)
    (hcapacity : r.counts.capacity < UInt64.size) : r.counts.InWords where
  total := hsize
  available := (r.countOf_le_size .available).trans_lt hsize
  busy := (r.countOf_le_size .busy).trans_lt hsize
  offline := (r.countOf_le_size .offline).trans_lt hsize
  capacity := hcapacity
  activeBuilds := (activeBuilds_le_capacity hr).trans_lt hcapacity

end Roster

/-- The counts of a pool fit the words in which they are kept. -/
structure Pool.InWords (p : Pool) : Prop where
  builds : ∀ b ∈ p.ledger.builds.toList, b.InWords
  counters : p.ledger.counters.InWords
  workers : p.roster.size < UInt64.size
  capacity : p.roster.counts.capacity < UInt64.size

instance (p : Pool) : Decidable p.InWords :=
  decidable_of_iff ((∀ b ∈ p.ledger.builds.toList, b.InWords) ∧ p.ledger.counters.InWords ∧
      p.roster.size < UInt64.size ∧ p.roster.counts.capacity < UInt64.size)
    ⟨fun ⟨h₁, h₂, h₃, h₄⟩ => ⟨h₁, h₂, h₃, h₄⟩, fun ⟨h₁, h₂, h₃, h₄⟩ => ⟨h₁, h₂, h₃, h₄⟩⟩

/-! ## What the client reads -/

namespace Pool

/-- What the client reads is what the pool put there, whatever it is asked for. -/
structure Agrees (p : Pool) (now : Instant) : Prop where
  submitted : ∀ r : HttpRequest, r.Asks "POST" .builds →
    (respond p now r).1.reply.isSuccess = true → ∃ request b,
      readBody Request r = .ok request ∧ p.submit now request = .ok (b, (respond p now r).2) ∧
      (respond p now r).1.reply.read SubmitAnswer = .ok (SubmitAnswer.of b)
  listed : ∀ r : HttpRequest, r.Asks "GET" .builds →
    (respond p now r).1.reply.isSuccess = true → ∃ q status,
      ListQuery.ofText? (splitTarget r.target).2 = some q ∧ readStatus q.status = .ok status ∧
      (respond p now r).1.reply.read BuildListAnswer =
        .ok ⟨(p.list status q.limit).map (Build.mapNumbers readBack)⟩
  status : ∀ (r : HttpRequest) (id : String), r.Asks "GET" (.buildStatus id) →
    (respond p now r).1.reply.isSuccess = true → ∃ build b,
      readId id = .ok build ∧ p.status build = .ok b ∧
      (respond p now r).1.reply.read StatusAnswer = .ok (StatusAnswer.of b)
  cancelled : ∀ (r : HttpRequest) (id : String), r.Asks "DELETE" (.build id) →
    (respond p now r).1.reply.isSuccess = true → ∃ build c,
      readId id = .ok build ∧ p.cancel now build = .ok (c, (respond p now r).2) ∧
      (respond p now r).1.reply.read CancelAnswer = .ok (CancelAnswer.of c)
  workers : ∀ r : HttpRequest, r.Asks "GET" .workers →
    (respond p now r).1.reply.read WorkerListAnswer = .ok ⟨p.workers.map WorkerRow.of⟩
  metrics : ∀ r : HttpRequest, r.Asks "GET" .metrics →
    (respond p now r).1.reply.read Metrics = .ok (Api.metrics p)
  /-- No number is written as nothing, and the decimal of each is read as a number. -/
  numbers : ∀ id b, p.ledger.find? id = some b →
    (decimalOf b.progress).toFloat? = some (readBack b.progress)
  /-- The words of a refusal are found. Only a part of the path that is no text is refused in plain
  words. -/
  refused : ∀ r : HttpRequest, 400 ≤ (respond p now r).1.status →
    (respond p now r).1.body = .empty ∨ ∃ f : Api.Failure, (respond p now r).1 = f.response ∧
      (f ≠ .badPath → (respond p now r).1.reply.read ErrorAnswer = .ok ⟨f.message⟩) ∧
      ∀ (α : Type) [Decode α], readAnswer α (some (respond p now r).1.reply) =
        .error (.refused f.response.status f.message)

variable {p : Pool} {now : Instant}

theorem inWords_metrics (hroster : p.roster.Sound) (hledger : p.ledger.Balanced)
    (h : p.InWords) : (Api.metrics p).InWords := by
  have hsubmitted := hledger.submitted
  rw [Ledger.openCount_eq] at hsubmitted
  have hbound := h.counters.submitted
  constructor
  case total => exact hbound
  case queued =>
    change p.ledger.countOf .queued < _
    omega
  case active =>
    change p.ledger.countOf .assigned + p.ledger.countOf .running < _
    omega
  case completed => exact h.counters.completed
  case failed => exact h.counters.failed
  case cancelled => exact h.counters.cancelled
  case retried => exact h.counters.retried
  case cacheHits => exact h.counters.cacheHits
  case workers => exact Roster.inWords_counts hroster h.workers h.capacity

theorem mem_of_list {status : Option BuildStatus} {limit : Option Nat} {b : Build}
    (h : b ∈ p.list status limit) : b ∈ p.ledger.builds.toList :=
  List.mem_of_mem_filter (Ledger.mem_bySequence.1 (List.mem_of_mem_take h))

theorem mem_of_status {id : BuildId} {b : Build} (h : p.status id = .ok b) :
    b ∈ p.ledger.builds.toList := by
  have hfind := Ledger.require_eq_ok h
  rw [← Ledger.id_of_find? hfind] at hfind
  exact Catalog.mem_toList.2 (Ledger.mem_builds_iff.2 hfind)

theorem load_lt {w : Worker} (hroster : p.roster.Sound) (h : w ∈ p.workers) :
    w.load < UInt32.size :=
  (hroster _ w (Roster.find?_of_mem h)).fits.trans_lt w.info.capacity.toNat_lt

theorem agrees (hledger : p.ledger.Expressible) (hroster : p.roster.Sound)
    (hbalanced : p.ledger.Balanced) (hwords : p.InWords) (now : Instant) : p.Agrees now := by
  have hfound : ∀ {b}, b ∈ p.ledger.builds.toList → b.Expressible := fun h =>
    hledger _ _ (Ledger.mem_builds_iff.1 (Catalog.mem_toList.1 h))
  have h200 : 200 ≠ 204 ∧ 200 ≠ 304 := by decide
  have h202 : 202 ≠ 204 ∧ 202 ≠ 304 := by decide
  constructor
  case submitted =>
    intro r hr hsuccess
    rw [respond_submit hr] at hsuccess ⊢
    obtain ⟨answer, hanswer, heq⟩ := exists_of_isSuccess_finish hsuccess
    obtain ⟨request, b, hrequest, hb, hresponse⟩ := submitBuild_eq_ok hanswer
    rw [heq, hresponse]
    exact ⟨request, b, hrequest, hb, read_jsonResponse h202 (writable_submittedBody b)
      (decode_submittedBody b)⟩
  case listed =>
    intro r hr hsuccess
    rw [respond_get hr read?_builds] at hsuccess ⊢
    dsimp only at hsuccess ⊢
    obtain ⟨response, hresponse, heq⟩ := exists_of_isSuccess_answerOf hsuccess
    obtain ⟨q, status, hq, hstatus, rfl⟩ := listBuilds_eq_ok hresponse
    rw [heq]
    refine ⟨q, status, hq, hstatus, read_jsonResponse h200 (writable_buildListBody _)
      (decode_buildListBody ?_ ?_ ?_)⟩
    · exact fun b hb => hwords.builds b (mem_of_list hb)
    · exact fun b hb => (hfound (mem_of_list hb)).instants
    · exact fun b hb => (hfound (mem_of_list hb)).progress
  case status =>
    intro r id hr hsuccess
    rw [respond_get hr read?_buildStatus] at hsuccess ⊢
    dsimp only at hsuccess ⊢
    obtain ⟨response, hresponse, heq⟩ := exists_of_isSuccess_answerOf hsuccess
    obtain ⟨build, b, hbuild, hb, rfl⟩ := getStatus_eq_ok hresponse
    rw [heq]
    have hmem : b ∈ p.ledger.builds.toList := mem_of_status hb
    exact ⟨build, b, hbuild, hb, read_jsonResponse h200 (writable_statusBody b)
      (decode_statusBody (hwords.builds b hmem).retries (hfound hmem).progress)⟩
  case cancelled =>
    intro r id hr hsuccess
    rw [respond_cancel hr] at hsuccess ⊢
    obtain ⟨answer, hanswer, heq⟩ := exists_of_isSuccess_finish hsuccess
    obtain ⟨build, c, hbuild, hc, hresponse⟩ := cancelBuild_eq_ok hanswer
    rw [heq, hresponse]
    exact ⟨build, c, hbuild, hc, read_jsonResponse h200 (writable_cancelledBody c)
      (decode_cancelledBody c)⟩
  case workers =>
    intro r hr
    rw [respond_get hr rfl]
    exact read_jsonResponse h200 (writable_workerListBody _)
      (decode_workerListBody fun w hw => load_lt hroster hw)
  case metrics =>
    intro r hr
    rw [respond_get hr rfl]
    exact read_jsonResponse h200 (writable_metrics _)
      (decode_metrics (inWords_metrics hroster hbalanced hwords))
  case numbers => exact fun id b hb => (hledger id b hb).progress.toFloat?_decimalOf
  case refused =>
    intro r hstatus
    rcases explained_respond p now r hstatus with hempty | ⟨f, hf⟩
    · exact .inl hempty
    · rw [hf]
      exact .inr ⟨f, rfl, read_response, fun α _ => readAnswer_response α f⟩

end Pool

/-! ## What the pool reads -/

namespace CommandLine

/-- What a submission says, from the arguments to what the pool reads of the body that is sent. -/
structure SubmitsAsTold : Prop where
  carried : ∀ (environment : Option String) (args : List String) (i : Invocation)
    (request : Request), Invocation.ofArgs environment args = .ok i →
    i.command = .submit request → ∃ front rest p project task priority options,
      args = front ++ "submit" :: rest ∧ submitForm.grammar.read rest = .ok p ∧
      Asked p project task priority (p.has "cache") options ∧
      Carries request project task priority (p.has "cache") options
  accepted : ∀ (environment : Option String) (project task : String) (priority : Int32)
    (cache : Bool) (options : List (String × String)),
    (∀ o ∈ options, o.1 ≠ "" ∧ '=' ∉ o.1.toList) → ∃ request,
      Invocation.ofArgs environment (submitArgs project task priority cache options) =
        .ok ⟨none, .submit request⟩ ∧ Carries request project task priority cache options
  decoded : ∀ (request : Request) (address : String), decodeFront Request
    (HttpRequest.ofCall ((Command.submit request).call address)).body = .ok request
  /-- A body that is too long is refused before it is read. -/
  read : ∀ (request : Request) (address : String),
    readBody Request (HttpRequest.ofCall ((Command.submit request).call address)) =
      if bodyLimit < (encode request).compact.utf8ByteSize then .error .longBody else .ok request

theorem submits_as_told : SubmitsAsTold where
  carried _ _ _ _ := carries_of_ofArgs
  accepted environment _ _ _ _ _ := ofArgs_submitArgs environment
  decoded request address :=
    (decodeFront_compact (writable request)).trans (decode_of_tells (tells_encode request))
  read request address := by
    rw [readBody_ofCall rfl (writable request), decode_of_tells (tells_encode request)]
    rfl

theorem length_le_utf8ByteSize (text : String) : text.toList.length ≤ text.utf8ByteSize := by
  rw [← String.utf8Len_toList]
  induction text.toList with
  | nil => exact Nat.le_refl 0
  | cons c rest ih =>
    rw [List.length_cons, String.utf8Len_cons]
    exact Nat.add_le_add ih (Char.utf8Size_pos c)

theorem length_project_le (request : Request) :
    request.project.toList.length ≤ (encode request).compact.utf8ByteSize := by
  have hproject := length_le_flatMap_escapeChar request.project.toList
  have hcompact : (Json.string request.project).compact.toList = quotedChars request.project :=
    quote_toList request.project
  refine le_trans ?_ (length_le_utf8ByteSize _)
  rw [compact_toList (encode request) 0]
  change _ ≤ (written compactLayout 0 (.object (("project", .string request.project) :: _))).length
  simp only [written, hcompact, quotedChars, List.length_cons, List.length_append]
  omega

end CommandLine

/-! ## Every pool -/

namespace Course

variable {config : Config} {caching : Bool} {ops : List Op} {c : Course}

theorem client_agrees (hrun : Run (start config caching) ops c) (hops : ∀ op ∈ ops, op.Dated)
    (hwords : c.pool.InWords) (now : Instant) : c.pool.Agrees now ∧ SubmitsAsTold := by
  have hreachable : c.Reachable := ⟨config, caching, ops, hrun⟩
  have hledger := hrun.expressible_ledger hops
  exact ⟨Pool.agrees hledger hreachable.sound.pool.roster hreachable.balanced hwords now,
    submits_as_told⟩

/-- A worker tells how far it is with a build. -/
def underWay (amount : Float) : List Op :=
  [.submit ⟨0, 0⟩ { project := "p", task := "t" } ⟨"a"⟩,
    .register ⟨1, 0⟩ { id := ⟨"w"⟩, address := "x", capacity := 1 },
    .pass ⟨2, 0⟩,
    .progress ⟨3, 0⟩ ⟨"a"⟩ ⟨"w"⟩ amount]

theorem run_underWay (amount : Float) :
    Run (start {} false) (underWay amount) ((underWay amount).foldl after (start {} false)) :=
  run_foldl ⟨List.not_mem_nil, trivial, trivial, trivial, trivial⟩

theorem dated_underWay (amount : Float) : ∀ op ∈ underWay amount, op.Dated := by
  have hvalid : ∀ n < 4, Instant.Valid ⟨(n : Nat), 0⟩ := by decide +kernel
  simp only [underWay, List.forall_mem_cons]
  exact ⟨hvalid 0 (by decide), hvalid 1 (by decide), hvalid 2 (by decide), hvalid 3 (by decide),
    List.forall_mem_nil _⟩

def askForStatus : HttpRequest := { method := "GET", target := "/api/builds/a/status" }

theorem client_agrees_underWay :
    ((underWay 0.5).foldl after (start {} false)).pool.Agrees ⟨4, 0⟩ ∧
      (respond ((underWay 0.5).foldl after (start {} false)).pool ⟨4, 0⟩ askForStatus).1.reply.read
        StatusAnswer = .ok ⟨"a", .running, 0.5, none, some "w", 0⟩ :=
  ⟨(client_agrees (run_underWay 0.5) (dated_underWay 0.5) (by decide +kernel) ⟨4, 0⟩).1,
    by decide +kernel⟩

/-- A progress of sixteen digits is read as the next number, and a body can be too long to be
read. -/
theorem not_client_agrees_exactly :
    (¬ ∀ (ops : List Op) (c : Course), Run (start {} false) ops c → (∀ op ∈ ops, op.Dated) →
      c.pool.InWords → ∀ (now : Instant) (r : HttpRequest) (id : String),
      r.Asks "GET" (.buildStatus id) → (respond c.pool now r).1.reply.isSuccess = true →
      ∃ build b answer, readId id = .ok build ∧ c.pool.status build = .ok b ∧
        (respond c.pool now r).1.reply.read StatusAnswer = .ok answer ∧
        answer.progress = b.progress) ∧
    ∃ args request, Invocation.ofArgs none args = .ok ⟨none, .submit request⟩ ∧
      ∀ address, readBody Request (HttpRequest.ofCall ((Command.submit request).call address)) =
        .error .longBody := by
  constructor
  · intro h
    have hasks : askForStatus.Asks "GET" (.buildStatus "a") := ⟨rfl, by decide +kernel⟩
    obtain ⟨build, b, answer, hbuild, hb, hanswer, hsame⟩ := h _ _
      (run_underWay 0.9452706955539223) (dated_underWay _) (by decide +kernel) ⟨4, 0⟩ askForStatus
      "a" hasks (by decide +kernel)
    have hid : readId "a" = .ok ⟨"a"⟩ := by decide +kernel
    have hkept : (((underWay 0.9452706955539223).foldl after (start {} false)).pool.status
        ⟨"a"⟩).map Build.progress = .ok 0.9452706955539223 := by decide +kernel
    have hread : (respond ((underWay 0.9452706955539223).foldl after (start {} false)).pool ⟨4, 0⟩
        askForStatus).1.reply.read StatusAnswer =
          .ok ⟨"a", .running, 0.9452706955539224, none, some "w", 0⟩ := by decide +kernel
    rw [hid] at hbuild
    cases hbuild
    rw [hb] at hkept
    rw [hread] at hanswer
    cases hanswer
    rw [Except.ok.inj hkept] at hsame
    exact absurd hsame (by decide +kernel)
  · let project := String.ofList (List.replicate (bodyLimit + 1) 'x')
    obtain ⟨request, hrequest, hcarries⟩ :=
      submits_as_told.accepted none project "t" 0 false [] (List.forall_mem_nil _)
    have hlength := length_project_le request
    rw [hcarries.project, String.toList_ofList, List.length_replicate] at hlength
    exact ⟨_, request, hrequest, fun address =>
      (submits_as_told.read request address).trans (if_pos hlength)⟩

end Course

end BuildPool
