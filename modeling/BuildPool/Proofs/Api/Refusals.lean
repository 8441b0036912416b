import BuildPool.Proofs.Api.Steps
import BuildPool.Proofs.Pool.Reachable
import BuildPool.Proofs.Pool.Keeps
import BuildPool.Proofs.Pool.Notices

/-!
# What is turned down

Requests that fail, reports that are not accepted and cancellations that come too late change
nothing, and neither do the operations on ledger and roster that are not carried out. All of them
work in place, so a write before the last check would be seen.
-/

namespace BuildPool

open BuildPool.Json BuildPool.Time Ledger

theorem Ledger.cancel_of_isTerminal {l : Ledger} {id : BuildId} {b : Build}
    (hb : l.find? id = some b) (hend : b.isTerminal = true) (now : Instant) :
    l.cancel id now = .ok (⟨b.status, none, false⟩, l) := by
  rw [Ledger.cancel, Ledger.require, hb]
  exact if_pos hend

theorem Pool.cancel_of_isTerminal {p : Pool} {id : BuildId} {b : Build}
    (hb : p.ledger.find? id = some b) (hend : b.isTerminal = true) (now : Instant) :
    p.cancel now id = .ok (⟨b.status, none, false⟩, p) := by
  rw [Pool.cancel, Ledger.cancel_of_isTerminal hb hend]
  rfl

namespace Api

/-- The answer says that nothing was done. -/
def Response.Declines (answer : Response) : Prop :=
  400 ≤ answer.status ∨ answer.body = .json (acceptedBody false)

/-- The request would cancel a build that has ended. -/
def CancelsEnded (p : Pool) (r : HttpRequest) : Prop :=
  r.method = "DELETE" ∧ ∃ part id b, Route.ofPath? (splitTarget r.target).1 = some (.build part) ∧
    readId part = .ok id ∧ p.ledger.find? id = some b ∧ b.isTerminal = true

/-! ## Answers -/

theorem not_declines_jsonResponse {status : Nat} {name : String} {value : Json}
    {more : List (String × Json)} (hstatus : status < 400) (hname : name ≠ "accepted") :
    ¬(jsonResponse status (.object ((name, value) :: more))).Declines := by
  rintro (h | h)
  · exact Nat.not_le.2 hstatus h
  · cases h
    exact hname rfl

theorem eq_false_of_declines {accepted : Bool}
    (h : (jsonResponse 200 (acceptedBody accepted)).Declines) : accepted = false := by
  rcases h with h | h
  · exact absurd h (by decide : ¬400 ≤ 200)
  · cases h
    rfl

/-! ## Operations -/

/-- If the operation is turned down, the pool is as it was. -/
def Traceless (p : Pool) (answer : Response × Pool) : Prop := answer.1.Declines → answer.2 = p

theorem traceless_finish {p : Pool} {result : Except Failure (Response × Pool)}
    (h : ∀ answer, result = .ok answer → Traceless p answer) : Traceless p (finish p result) := by
  cases result with
  | error f => exact fun _ => rfl
  | ok answer => exact h answer rfl

theorem eq_ok_of_orRefused {α : Type} {e : Except Refusal α} {a : α}
    (h : orRefused e = .ok a) : e = .ok a := by
  cases e with
  | error e => cases h
  | ok a' => cases h; rfl

section Operations

variable {given : List BuildId} {p : Pool} (now : Instant) (id query : String) (route : Route)
  (r : HttpRequest)

theorem traceless_submitBuild : Traceless p (finish p (submitBuild p now r)) := by
  apply traceless_finish
  intro answer h hdeclines
  obtain ⟨request, -, h⟩ := Refusal.of_bind_eq_ok h
  obtain ⟨⟨b, p'⟩, -, h⟩ := Refusal.of_bind_eq_ok h
  cases h
  exact absurd hdeclines (not_declines_jsonResponse (by decide) (by decide))

theorem traceless_cancelBuild : Traceless p (finish p (cancelBuild p now id)) := by
  apply traceless_finish
  intro answer h hdeclines
  obtain ⟨request, -, h⟩ := Refusal.of_bind_eq_ok h
  obtain ⟨⟨c, p'⟩, -, h⟩ := Refusal.of_bind_eq_ok h
  cases h
  exact absurd hdeclines (not_declines_jsonResponse (by decide) (by decide))

theorem traceless_reportProgress : Traceless p (finish p (reportProgress p now id r)) := by
  apply traceless_finish
  intro answer h hdeclines
  obtain ⟨build, -, h⟩ := Refusal.of_bind_eq_ok h
  obtain ⟨body, -, h⟩ := Refusal.of_bind_eq_ok h
  obtain ⟨⟨accepted, p'⟩, hs, h⟩ := Refusal.of_bind_eq_ok h
  cases h
  rcases Pool.progress_cases (eq_ok_of_orRefused hs) with ⟨-, hsame⟩ | ⟨haccepted, -⟩
  · exact hsame
  · cases haccepted.symm.trans (eq_false_of_declines hdeclines)

theorem traceless_reportCompletion (h : Records given p.ledger)
    (hlimit : 1 ≤ p.ledger.historyLimit) :
    Traceless p (finish p (reportCompletion p now id r)) := by
  apply traceless_finish
  intro answer ha hdeclines
  obtain ⟨build, -, ha⟩ := Refusal.of_bind_eq_ok ha
  obtain ⟨report, -, ha⟩ := Refusal.of_bind_eq_ok ha
  obtain ⟨⟨accepted, p'⟩, hs, ha⟩ := Refusal.of_bind_eq_ok ha
  cases ha
  rcases Pool.complete_cases h hlimit (eq_ok_of_orRefused hs) with ⟨-, hsame⟩ | ⟨haccepted, -⟩
  · exact hsame
  · cases haccepted.symm.trans (eq_false_of_declines hdeclines)

theorem traceless_registerWorker : Traceless p (finish p (registerWorker p now r)) := by
  apply traceless_finish
  intro answer h hdeclines
  obtain ⟨info, -, h⟩ := Refusal.of_bind_eq_ok h
  obtain ⟨⟨w, p'⟩, -, h⟩ := Refusal.of_bind_eq_ok h
  cases h
  exact absurd hdeclines (not_declines_jsonResponse (by decide) (by decide))

theorem traceless_heartbeat : Traceless p (finish p (heartbeat p now r)) := by
  apply traceless_finish
  intro answer h hdeclines
  obtain ⟨body, -, h⟩ := Refusal.of_bind_eq_ok h
  obtain ⟨p', -, h⟩ := Refusal.of_bind_eq_ok h
  cases h
  exact absurd hdeclines (not_declines_jsonResponse (by decide) (by decide))

theorem traceless_post? (h : Records given p.ledger) (hlimit : 1 ≤ p.ledger.historyLimit)
    {answer : Response × Pool} (hpost : post? p now route r = some answer) :
    Traceless p answer := by
  cases route with
  | builds => cases hpost; exact traceless_submitBuild now r
  | buildProgress id => cases hpost; exact traceless_reportProgress now id r
  | buildCompletion id => cases hpost; exact traceless_reportCompletion now id r h hlimit
  | workers => cases hpost; exact traceless_registerWorker now r
  | heartbeat => cases hpost; exact traceless_heartbeat now r
  | build | buildStatus | metrics | health | exposition => cases hpost

theorem traceless_perform? (h : Records given p.ledger) (hlimit : 1 ≤ p.ledger.historyLimit)
    {answer : Response × Pool} (hperform : perform? p now route query r = some answer) :
    Traceless p answer := by
  unfold perform? at hperform
  split at hperform
  · obtain ⟨response, -, rfl⟩ := Option.map_eq_some_iff.1 hperform
    exact fun _ => rfl
  · obtain ⟨response, -, rfl⟩ := Option.map_eq_some_iff.1 hperform
    exact fun _ => rfl
  · exact traceless_post? now _ r h hlimit hperform
  · cases hperform
    exact traceless_cancelBuild now _
  · cases hperform

theorem traceless_respond (h : Records given p.ledger) (hlimit : 1 ≤ p.ledger.historyLimit) :
    Traceless p (respond p now r) := by
  unfold respond
  split
  · exact fun _ => rfl
  · dsimp only
    cases Route.ofPath? (splitTarget r.target).1 with
    | none => exact fun _ => rfl
    | some route =>
      dsimp only
      cases hperform : perform? p now route (splitTarget r.target).2 r with
      | none => exact fun _ => rfl
      | some answer => exact traceless_perform? now _ route r h hlimit hperform

/-- A build that has ended is not cancelled again. -/
theorem respond_of_cancelsEnded (h : CancelsEnded p r) : (respond p now r).2 = p := by
  obtain ⟨hmethod, part, id, b, hroute, hid, hb, hend⟩ := h
  have hanswer : cancelBuild p now part =
      .ok (jsonResponse 200 (cancelledBody ⟨b.status, none, false⟩), p) := by
    rw [cancelBuild, hid]
    dsimp only [bind, Except.bind]
    rw [Pool.cancel_of_isTerminal hb hend now]
    rfl
  have hperform : perform? p now (.build part) (splitTarget r.target).2 r =
      some (finish p (cancelBuild p now part)) := by
    unfold perform?
    rw [hmethod]
    rfl
  unfold respond
  rw [hmethod, if_neg (by decide)]
  dsimp only
  rw [hroute]
  dsimp only
  rw [hperform, hanswer]
  rfl

end Operations

end Api

/-! ## What is not carried out -/

namespace Ledger.InPlace

variable {l l' : Ledger} {id : BuildId} {w : WorkerId} {now : Instant} {attempt : Nat}

theorem done_eq_false {done? : Option Ledger} :
    done l done? = (false, l') ↔ done? = none ∧ l' = l := by
  cases done? with
  | none => simp [done, eq_comm]
  | some l => simp [done]

theorem lose_eq_notHeld :
    l.lose id w now = (.notHeld, l') ↔ (l.lose id w now).1 = .notHeld ∧ l' = l := by
  rcases l.lose_cases id w now with ⟨-, h⟩ | ⟨b, -, -, ⟨-, h⟩ | ⟨-, h⟩⟩
  · simp [h, eq_comm]
  · simp [h]
  · simp [h]

end Ledger.InPlace

namespace Pool

/-- Whatever is turned down or not carried out leaves no trace. -/
structure KeepsNoTrace (p : Pool) : Prop where
  requests : ∀ now r, (Api.respond p now r).1.Declines ∨ Api.CancelsEnded p r →
    (Api.respond p now r).2 = p
  inPlace : ∀ now r, Api.InPlace.serve p now r = Api.respond p now r
  assign : ∀ id w now e l, (Ledger.InPlace.assign id w now).exec p.ledger = (.error e, l) ↔
    p.ledger.assign id w now = .error e ∧ l = p.ledger
  reserve : ∀ w id e r, (Roster.InPlace.reserve w id).exec p.roster = (.error e, r) ↔
    p.roster.reserve w id = .error e ∧ r = p.roster
  register : ∀ info now e r, (Roster.InPlace.register info now).exec p.roster = (.error e, r) ↔
    p.roster.register info now = .error e ∧ r = p.roster
  acknowledge : ∀ id w attempt l,
    (Ledger.InPlace.acknowledge id w attempt).exec p.ledger = (.ok false, l) ↔
      p.ledger.acknowledge? id w attempt = none ∧ l = p.ledger
  rollback : ∀ id w attempt l,
    (Ledger.InPlace.rollback id w attempt).exec p.ledger = (.ok false, l) ↔
      p.ledger.rollback? id w attempt = none ∧ l = p.ledger
  satisfy : ∀ id artifacts now l,
    (Ledger.InPlace.satisfy id artifacts now).exec p.ledger = (.ok false, l) ↔
      p.ledger.satisfy? id artifacts now = none ∧ l = p.ledger
  lose : ∀ id w now l, (Ledger.InPlace.lose id w now).exec p.ledger = (.ok .notHeld, l) ↔
    (p.ledger.lose id w now).1 = .notHeld ∧ l = p.ledger

end Pool

namespace Course

theorem keepsNoTrace {c : Course} (h : c.Reachable) : c.pool.KeepsNoTrace := by
  have hrecords := h.sound.pool.ledger.records
  have hlimit := h.limited.one_le_historyLimit
  constructor
  case requests =>
    rintro now r (hdeclines | hended)
    · exact Api.traceless_respond now r hrecords hlimit hdeclines
    · exact Api.respond_of_cancelsEnded now r hended
  case inPlace => exact Api.InPlace.serve_eq_respond c.pool
  case assign =>
    intro id w now e l
    exact (Ledger.InPlace.does_assign id w now).exec_eq_error
  case reserve =>
    intro w id e r
    rw [(Roster.InPlace.does_reserve w id).exec_eq_error, Steps.map_eq_error]
  case register =>
    intro info now e r
    exact (Roster.InPlace.does_register info now).exec_eq_error
  case acknowledge =>
    intro id w attempt l
    rw [(Ledger.InPlace.does_acknowledge id w attempt).exec_eq_ok]
    rw [Except.ok.injEq, Ledger.InPlace.done_eq_false]
  case rollback =>
    intro id w attempt l
    rw [(Ledger.InPlace.does_rollback id w attempt).exec_eq_ok]
    rw [Except.ok.injEq, Ledger.InPlace.done_eq_false]
  case satisfy =>
    intro id artifacts now l
    rw [(Ledger.InPlace.does_satisfy id artifacts now).exec_eq_ok]
    rw [Except.ok.injEq, Ledger.InPlace.done_eq_false]
  case lose =>
    intro id w now l
    rw [(Ledger.InPlace.does_lose id w now).exec_eq_ok]
    rw [Except.ok.injEq, Ledger.InPlace.lose_eq_notHeld]

/-- The first of two builds was cancelled, and somebody cancels it once more. -/
theorem keepsNoTrace_cancelledTwice :
    let c := twoBuilds.after (.cancel ⟨3, 0⟩ ⟨"a"⟩)
    let r : Api.HttpRequest := { method := "DELETE", target := "/api/builds/a" }
    c.Reachable ∧ Api.CancelsEnded c.pool r ∧ (Api.respond c.pool ⟨4, 0⟩ r).2 = c.pool := by
  have hreachable := reachable_twoBuilds.after (.cancel ⟨3, 0⟩ ⟨"a"⟩) trivial
  let c := twoBuilds.after (.cancel ⟨3, 0⟩ ⟨"a"⟩)
  have hany : (c.pool.ledger.find? ⟨"a"⟩).any Build.isTerminal = true := by decide
  obtain ⟨b, hb, hend⟩ := (Option.any_eq_true _ _).1 hany
  have hroute : Api.Route.ofPath? (Api.splitTarget "/api/builds/a").1 = some (.build "a") := by
    decide
  have hid : Api.readId "a" = .ok ⟨"a"⟩ := by
    rw [Api.readId, (by decide +kernel : Text.decodePathPart? "a" = some "a")]
  have hended : Api.CancelsEnded c.pool { method := "DELETE", target := "/api/builds/a" } :=
    ⟨rfl, "a", ⟨"a"⟩, b, hroute, hid, hb, hend⟩
  exact ⟨hreachable, hended, (keepsNoTrace hreachable).requests _ _ (.inr hended)⟩

end Course

end BuildPool
