import BuildPool.Proofs.Pool.Keeps
import BuildPool.Proofs.Pool.Notices

/-!
# The snapshotter

A snapshot is taken when one was asked for, and whenever a timer goes off. One request is kept until
it is taken, just before the snapshot. Whatever comes in between, as long as no request is kept the
last snapshot has all that must not be lost: the builds that ended, and who the workers are and
whether they are there.
-/

namespace BuildPool

open BuildPool.Time Ledger

/-- What a worker declared, and whether it is online. -/
def Worker.standing (w : Worker) : WorkerInfo × Bool := (w.info, w.isOnline)

theorem Worker.standing_eq {w w' : Worker} (hinfo : w'.info = w.info)
    (hon : w'.isOnline = w.isOnline) : w'.standing = w.standing := Prod.ext hinfo hon

namespace Roster

variable {r r' : Roster} {w x : WorkerId} {worker worker' : Worker}

def standing (r : Roster) (w : WorkerId) : Option (WorkerInfo × Bool) :=
  (r.find? w).map Worker.standing

theorem standing_put (h : r.find? w = some worker) (hsame : worker'.standing = worker.standing)
    (x : WorkerId) : (r.put worker').standing x = r.standing x := by
  have hid : worker'.id = w := (congrArg (·.1.id) hsame).trans (id_of_find? h)
  unfold standing
  rw [find?_put, hid]
  split
  · rename_i hx
    rw [hx, h, Option.map_some, Option.map_some, hsame]
  · rfl

theorem standing_release {b : BuildId} (h : r.release w b = .ok r') (x : WorkerId) :
    r'.standing x = r.standing x := by
  obtain ⟨worker, hworker, rfl⟩ := release_eq_ok h
  exact standing_put hworker
    (Worker.standing_eq (worker.release_info b) (Worker.refresh_isOnline _)) x

theorem standing_allot (r : Roster) (q : List Build) (x : WorkerId) :
    (r.allot q).2.standing x = r.standing x := by
  induction r, q using allot_induction with
  | nil r => rfl
  | skip r b rest hs ih => rw [allot_skip hs]; exact ih
  | place r b rest w hs ih =>
    obtain ⟨hw, -, -⟩ := select_eq_some hs
    have htake : (w.take b.id).standing = w.standing :=
      Worker.standing_eq (w.take_info b.id) (Worker.refresh_isOnline _)
    rw [allot_place hs]
    exact ih.trans (standing_put hw htake x)

theorem standing_heartbeat {usage : Usage} {now : Instant}
    (h : r.heartbeat w usage now = .ok (false, r')) (x : WorkerId) :
    r'.standing x = r.standing x := by
  obtain ⟨worker, hworker, hrevived, rfl⟩ := heartbeat_eq_ok h
  have hon : worker.isOnline = true := by simpa using hrevived
  refine standing_put hworker (Worker.standing_eq (worker.beat_info usage now) ?_) x
  rw [Worker.beat_isOnline, hon]

end Roster

/-! ## Operations that need not be saved -/

namespace Pool

variable {p p' : Pool} {given : List BuildId} {now : Instant} {id : BuildId} {w : WorkerId}
  {b : Build} {l : Ledger}

/-- No build ended, and the workers stand as they did. -/
structure Steady (p p' : Pool) : Prop where
  ended : ∀ id b, p'.ledger.find? id = some b → b.isTerminal = true → p.ledger.find? id = some b
  history : p'.ledger.history = p.ledger.history
  workers : ∀ w, p'.roster.standing w = p.roster.standing w
  request : p'.saveRequest = p.saveRequest

theorem Steady.refl (p : Pool) : p.Steady p := ⟨fun _ _ h _ => h, rfl, fun _ => rfl, rfl⟩

/-- A build that is open is written anew, and stays open. -/
theorem steady_put (hopen : b.isTerminal = false) (hledger : p'.ledger.find? = (l.put b).find?)
    (hl : p.ledger = l) (hhistory : p'.ledger.history = l.history)
    (hworkers : ∀ w, p'.roster.standing w = p.roster.standing w)
    (hrequest : p'.saveRequest = p.saveRequest) : p.Steady p' where
  ended id x hx hend := by
    subst hl
    rw [hledger, find?_put] at hx
    split at hx
    · cases hx
      rw [hopen] at hend
      cases hend
    · exact hx
  history := hl ▸ hhistory
  workers := hworkers
  request := hrequest

/-- A snapshot was asked for, or none is needed. -/
def Asks (p p' : Pool) : Prop := p'.saveRequest = true ∨ p.Steady p'

theorem asks_self (p : Pool) : p.Asks p := .inr (.refl p)

theorem standing_free (p : Pool) (w : WorkerId) (b : BuildId) (x : WorkerId) :
    (p.free w b).roster.standing x = p.roster.standing x := by
  unfold free
  split
  · rename_i r hr
    exact Roster.standing_release hr x
  · rfl

theorem saveRequest_free (p : Pool) (w : WorkerId) (b : BuildId) :
    (p.free w b).saveRequest = p.saveRequest := by
  unfold free
  split
  · rfl
  · rfl

/-! ## Clients -/

theorem asks_submitAs {r : Request} (h : Records given p.ledger) (hnew : id ∉ given)
    (hs : p.submitAs now r id = .ok (b, p')) : p.Asks p' := by
  obtain ⟨l, hl, hledger, hroster⟩ := submitAs_eq_ok hs
  have hrequest : p'.saveRequest = p.saveRequest := by
    obtain ⟨_, -, hs⟩ := Refusal.of_bind_eq_ok hs
    simp only [pure, Except.pure, Except.ok.injEq, Prod.mk.injEq] at hs
    obtain ⟨-, rfl⟩ := hs
    split
    · rfl
    · rfl
  obtain ⟨-, rfl, rfl⟩ := submit_eq_ok (h.find?_eq_none hnew) hl
  refine .inr (steady_put (b := .ofRequest r id p.ledger.nextSequence now) rfl ?_ rfl ?_ ?_ hrequest)
  · rw [hledger]
    rfl
  · rw [hledger]
    rfl
  · rw [hroster]
    exact fun _ => rfl

theorem saveRequest_announceCancellation (p : Pool) (now : Instant) (id : BuildId)
    (released : Option WorkerId) :
    (p.announceCancellation now id released).saveRequest = true := by
  unfold announceCancellation
  dsimp only
  split
  · rfl
  · split
    · rfl
    · rfl

theorem asks_cancel {answer : Cancellation} (hs : p.cancel now id = .ok (answer, p')) :
    p.Asks p' := by
  obtain ⟨l, -, rfl⟩ := cancel_eq_ok hs
  split
  · exact .inl (saveRequest_announceCancellation _ now id _)
  · exact asks_self p

/-! ## Reports and artifacts -/

theorem asks_progress {amount : Float} {held : Bool}
    (hs : p.progress now id w amount = .ok (held, p')) : p.Asks p' := by
  have hrequest : p'.saveRequest = p.saveRequest := by
    rcases progress_cases hs with ⟨-, rfl⟩ | ⟨-, b, l, -, -, -, rfl⟩
    · rfl
    · split
      · rfl
      · rfl
  rcases progress_eq_ok hs with rfl | ⟨l, hl, hledger, hroster⟩
  · exact asks_self p'
  · obtain ⟨b, -, hheld, rfl⟩ := Ledger.progress_eq_ok hl
    have hholds := Build.advance_holdsWorker (Build.heldBy_iff.1 hheld).1 amount
    refine .inr (steady_put (Build.isTerminal_eq_false_of_holdsWorker hholds) ?_ rfl ?_ ?_ hrequest)
    · rw [hledger]
    · rw [hledger]
      rfl
    · rw [hroster]
      exact fun _ => rfl

theorem asks_complete {r : Report} {held : Bool} (h : Records given p.ledger)
    (hlimit : 1 ≤ p.ledger.historyLimit) (hs : p.complete now id r = .ok (held, p')) :
    p.Asks p' := by
  rcases complete_cases h hlimit hs with ⟨-, rfl⟩ | ⟨-, b, l, -, -, -, rfl⟩
  · exact asks_self p'
  · refine .inl ?_
    unfold announceCompletion
    dsimp only
    split
    · rfl
    · rfl

theorem asks_satisfy (p : Pool) (now : Instant) (id : BuildId) (artifacts : List String) :
    p.Asks (p.satisfy now id artifacts).2 := by
  unfold satisfy
  split
  · exact asks_self p
  · exact .inl rfl

/-! ## Workers -/

theorem asks_register {info : WorkerInfo} {worker : Worker}
    (hs : p.register now info = .ok (worker, p')) : p.Asks p' := by
  obtain ⟨answer, -, hs⟩ := Refusal.of_bind_eq_ok hs
  cases hs
  exact .inl rfl

/-- A worker that comes back is there again; the heartbeat of another changes nothing of that. -/
theorem asks_heartbeat {usage : Usage} (hs : p.heartbeat now w usage = .ok p') : p.Asks p' := by
  obtain ⟨⟨revived, r⟩, hr, hs⟩ := Refusal.of_bind_eq_ok hs
  obtain ⟨worker, hworker⟩ := Roster.find?_of_heartbeat hr
  dsimp only at hs
  rw [hworker] at hs
  cases revived with
  | true =>
    cases hs
    exact .inl rfl
  | false =>
    cases hs
    exact .inr ⟨fun _ _ hb _ => hb, rfl, Roster.standing_heartbeat hr, rfl⟩

/-! ## Passes and deliveries -/

theorem steady_pass (h : p.Sound given) (now : Instant) : p.Steady (p.pass now).2 := by
  obtain ⟨-, backlog, heq⟩ := pass_eq h now
  rw [heq]
  constructor
  case ended =>
    intro id b hb hend
    change (give now p.placements p.ledger).find? id = some b at hb
    rcases find?_give now (fun _ => of_mem_placements) p.nodup_placements id with
      ⟨x, -, -, -, -, hgiven⟩ | hsame
    · rw [hgiven] at hb
      cases hb
      cases hend
    · rw [← hsame]
      exact hb
  case history =>
    change (give now p.placements p.ledger).history = p.ledger.history
    rw [give_eq]
  case workers => exact Roster.standing_allot p.roster p.ledger.queue
  case request => rfl

theorem steady_delivered (p : Pool) (now : Instant) (a : Assignment) :
    p.Steady (p.delivered now a) := by
  unfold delivered
  split
  · exact .refl p
  · rename_i l hl
    obtain ⟨b, -, -, rfl⟩ := acknowledge?_eq_some hl
    exact steady_put (b := b.start) rfl rfl rfl rfl (fun _ => rfl) rfl

theorem steady_undelivered (p : Pool) (a : Assignment) : p.Steady (p.undelivered a) := by
  unfold undelivered
  split
  · exact .refl p
  · rename_i l hl
    obtain ⟨b, -, -, rfl⟩ := rollback?_eq_some hl
    refine steady_put (b := b.requeue) rfl ?_ rfl ?_ (standing_free _ _ _) (saveRequest_free _ _ _)
    · rw [ledger_free]
      rfl
    · rw [ledger_free]
      rfl

/-! ## Scans -/

theorem saveRequest_announceScan {scan : Scan} (p : Pool) (now : Instant)
    (h : scan.offline ≠ []) : (p.announceScan now scan).saveRequest = true := by
  unfold announceScan
  rw [if_neg (by simpa using h)]
  dsimp only
  split
  · rfl
  · rfl

theorem asks_scan (p : Pool) (now judged : Instant) : p.Asks (p.scan now judged).2 := by
  by_cases hstale : p.roster.stale judged p.heartbeatTimeout = []
  · rw [scan_of_stale_nil hstale]
    exact asks_self p
  · obtain ⟨roster, heq, hscan, -⟩ := p.scan_eq now judged
    refine .inl ?_
    rw [heq]
    apply saveRequest_announceScan
    rw [hscan]
    exact hstale

end Pool

namespace Course

variable {c : Course} {op : Op}

theorem asks_enter {α : Type} {result : Except Refusal (α × Pool)}
    (hp : ∀ a p, result = .ok (a, p) → c.pool.Asks p) : c.pool.Asks (c.enter result).pool :=
  of_enter c.pool.asks_self hp

/-- An operation that ends a build, or by which a worker comes or goes, asks for a snapshot. -/
theorem asks_after (h : c.Sound) (hlimited : c.Limited) (hadmits : c.Admits op)
    (htake : op ≠ .takeSaveRequest)
    (hrestart : ∀ now config caching, op ≠ .restart now config caching) :
    c.pool.Asks (c.after op).pool := by
  have hrecords := h.pool.ledger.records
  cases op with
  | submit now r id =>
    simp only [after]
    split
    · rename_i b p hs
      exact Pool.asks_submitAs hrecords hadmits hs
    · exact c.pool.asks_self
  | cancel now id => exact asks_enter fun _ _ hs => Pool.asks_cancel hs
  | progress now id w amount => exact asks_enter fun _ _ hs => Pool.asks_progress hs
  | complete now id r =>
    exact asks_enter fun _ _ hs => Pool.asks_complete hrecords hlimited.one_le_historyLimit hs
  | satisfy now id artifacts => exact c.pool.asks_satisfy now id artifacts
  | register now info => exact asks_enter fun _ _ hs => Pool.asks_register hs
  | heartbeat now w usage =>
    exact asks_enter fun _ _ hs => Pool.asks_heartbeat (eq_ok_of_map hs)
  | pass now => exact .inr (Pool.steady_pass h.pool now)
  | delivered now place =>
    simp only [after]
    split
    · exact .inr (c.pool.steady_delivered now _)
    · exact c.pool.asks_self
  | undelivered place =>
    simp only [after]
    split
    · exact .inr (c.pool.steady_undelivered _)
    · exact c.pool.asks_self
  | scan now judged => exact c.pool.asks_scan now judged
  | wake | takeWakeUp => exact .inr ⟨fun _ _ hb _ => hb, rfl, fun _ => rfl, rfl⟩
  | takeSaveRequest => exact absurd rfl htake
  | restart now config caching => exact absurd rfl (hrestart now config caching)

end Course

/-! ## Taking snapshots -/

/-- A pool with the loop that takes its snapshots. -/
structure Snapshotter where
  course : Course
  /-- The last snapshot that was taken. -/
  last : Option Snapshot := none

namespace Snapshotter

inductive Event
  | op (o : Op)
  /-- The request is taken, and a snapshot right after it. -/
  | request (now : Instant)
  /-- The timer goes off. -/
  | timer (now : Instant)

def after (s : Snapshotter) : Event → Snapshotter
  | .op o => { s with course := s.course.after o }
  | .request now =>
    let course := s.course.after .takeSaveRequest
    { course, last := some (course.pool.capture now) }
  | .timer now => { s with last := some (s.course.pool.capture now) }

/-- Only the loop takes the request, and only if there is one. A restart ends the run. -/
def Admits (s : Snapshotter) : Event → Prop
  | .request _ => s.course.pool.saveRequest = true
  | .timer _ => True
  | .op .takeSaveRequest | .op (.restart ..) => False
  | .op o => s.course.Admits o

/-- A run begins with an empty pool, or with the first snapshot after a restart. -/
inductive Reachable : Snapshotter → Prop
  | start (config : Config) (caching : Bool) : Reachable { course := .start config caching }
  | resumed {c : Course} (h : c.Reachable) (now : Instant) :
    Reachable { course := c, last := some (c.pool.capture now) }
  | step {s : Snapshotter} {e : Event} : Reachable s → s.Admits e → Reachable (s.after e)

/-- The last snapshot has every build that ended as it is, the history, and every worker as it
stands. Without a snapshot there is nothing of the kind. -/
structure Saved (s : Snapshotter) : Prop where
  builds : ∀ id b, s.course.pool.ledger.find? id = some b → b.isTerminal = true →
    ∃ x, s.last = some x ∧ b ∈ x.image.builds
  history : (s.last.elim [] fun x => x.image.history) = s.course.pool.ledger.history
  workers : ∀ id w, s.course.pool.roster.find? id = some w →
    ∃ x w', s.last = some x ∧ w' ∈ x.workers ∧ w'.info = w.info ∧ w'.isOnline = w.isOnline

variable {s : Snapshotter} {e : Event} {o : Op}

theorem Admits.course (h : s.Admits (.op o)) : s.course.Admits o := by
  cases o with
  | submit now r id => exact h
  | _ => trivial

theorem Reachable.course (h : s.Reachable) : s.course.Reachable := by
  induction h with
  | start config caching => exact ⟨config, caching, [], .nil⟩
  | resumed h now => exact h
  | @step s e _ hadmits ih =>
    cases e with
    | op o => exact ih.after o hadmits.course
    | request now => exact ih.after .takeSaveRequest trivial
    | timer now => exact ih

/-- A snapshot has all of the pool that it was taken of. -/
theorem saved_capture (c : Course) (now : Instant) :
    Saved { course := c, last := some (c.pool.capture now) } where
  builds id b hb _ := by
    refine ⟨_, rfl, mem_bySequence.2 ?_⟩
    obtain rfl := id_of_find? hb
    exact mem_builds_iff.2 hb
  history := rfl
  workers id w hw := ⟨_, w, rfl, Roster.mem_list_of_find? hw, rfl, rfl⟩

theorem Saved.of_steady {c : Course} (h : s.Saved) (hsteady : s.course.pool.Steady c.pool) :
    Saved { s with course := c } where
  builds id b hb hend := h.builds id b (hsteady.ended id b hb hend) hend
  history := h.history.trans hsteady.history.symm
  workers id w hw := by
    have hstanding := hsteady.workers id
    unfold Roster.standing at hstanding
    rw [hw, Option.map_some] at hstanding
    obtain ⟨old, hold, heq⟩ := Option.map_eq_some_iff.1 hstanding.symm
    obtain ⟨x, w', hlast, hmem, hinfo, hon⟩ := h.workers id old hold
    exact ⟨x, w', hlast, hmem, hinfo.trans (congrArg Prod.fst heq), hon.trans (congrArg Prod.snd heq)⟩

/-- Either the loop has a request to take, or there is nothing to save. -/
def Covered (s : Snapshotter) : Prop := s.course.pool.saveRequest = true ∨ s.Saved

theorem covered_after (h : s.course.Reachable) (hcovered : s.Covered) (hadmits : s.Admits e) :
    (s.after e).Covered := by
  cases e with
  | request now => exact .inr (saved_capture _ now)
  | timer now => exact .inr (saved_capture s.course now)
  | op o =>
    have htake : o ≠ .takeSaveRequest := by
      rintro rfl
      exact hadmits
    have hrestart : ∀ now config caching, o ≠ .restart now config caching := by
      rintro now config caching rfl
      exact hadmits
    rcases Course.asks_after h.sound h.limited hadmits.course htake hrestart with hasked | hsteady
    · exact .inl hasked
    · rcases hcovered with hrequest | hsaved
      · exact .inl (hsteady.request.trans hrequest)
      · exact .inr (hsaved.of_steady hsteady)

theorem Reachable.covered (h : s.Reachable) : s.Covered := by
  induction h with
  | start config caching =>
    exact .inr ⟨fun _ _ hb _ => (by cases hb), rfl, fun _ _ hw => by cases hw⟩
  | resumed h now => exact .inr (saved_capture _ now)
  | step h hadmits ih => exact covered_after h.course ih hadmits

/-- In every reachable state in which no request for a snapshot is kept, the last snapshot has all
builds that ended, their order, and all workers as they stand. -/
theorem nothing_unsaved (h : s.Reachable) (hrequest : s.course.pool.saveRequest = false) :
    s.Saved := by
  rcases h.covered with hasked | hsaved
  · rw [hrequest] at hasked
    cases hasked
  · exact hsaved

/-- A build was reported, the request taken, and then a second build came. -/
def reported : Snapshotter :=
  ((((((Snapshotter.mk (.start {} false) none).after
    (.op (.submit ⟨0, 0⟩ { project := "p", task := "t" } ⟨"a"⟩))).after
    (.op (.register ⟨1, 0⟩ { id := ⟨"w"⟩, address := "x", capacity := 1 }))).after
    (.op (.pass ⟨2, 0⟩))).after
    (.op (.complete ⟨3, 0⟩ ⟨"a"⟩ { worker := ⟨"w"⟩, success := true }))).after
    (.request ⟨4, 0⟩)).after
    (.op (.submit ⟨5, 0⟩ { project := "p", task := "t" } ⟨"b"⟩))

theorem reachable_reported : reported.Reachable := by
  have hsubmit := (Reachable.start {} false).step
    (e := .op (.submit ⟨0, 0⟩ { project := "p", task := "t" } ⟨"a"⟩)) List.not_mem_nil
  have hregister := hsubmit.step
    (e := .op (.register ⟨1, 0⟩ { id := ⟨"w"⟩, address := "x", capacity := 1 })) trivial
  have hpass := hregister.step (e := .op (.pass ⟨2, 0⟩)) trivial
  have hcomplete := hpass.step
    (e := .op (.complete ⟨3, 0⟩ ⟨"a"⟩ { worker := ⟨"w"⟩, success := true })) trivial
  have htaken := hcomplete.step (e := .request ⟨4, 0⟩) rfl
  have hnew : (⟨"b"⟩ : BuildId) ∉ [⟨"a"⟩] := by decide
  exact htaken.step (e := .op (.submit ⟨5, 0⟩ { project := "p", task := "t" } ⟨"b"⟩)) hnew

theorem nothing_unsaved_reported :
    (reported.course.pool.ledger.find? ⟨"a"⟩).map Build.status = some .completed ∧
      reported.course.pool.saveRequest = false ∧ reported.Saved :=
  ⟨rfl, rfl, nothing_unsaved reachable_reported rfl⟩

end Snapshotter

end BuildPool
