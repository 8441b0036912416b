import BuildPool.Proofs.Pool.Fairness
import BuildPool.Proofs.Pool.Notices

/-!
# Wake-ups

After an operation a build can be given to a worker only if it could before, or if the operation
woke the scheduler. A build enters the queue and a slot becomes free in just a few ways, and each of
them wakes. Only a delivery that fails does so later, when its delay is over.
-/

namespace BuildPool

open BuildPool.Time Ledger

/-! ## Slots on offer -/

namespace Roster

/-- Some worker is online, has a free slot, and runs the task. -/
def Offers (r : Roster) (task : String) : Prop :=
  ∃ id w, r.find? id = some w ∧ w.isOnline = true ∧ w.load < w.capacity ∧
    w.info.supports task = true

variable {r r' : Roster} {id : WorkerId} {w w' : Worker} {task : String}

theorem offers_of_put (h : (r.put w').Offers task) (hw : r.find? id = some w)
    (hinfo : w'.info = w.info)
    (hfree : w'.isOnline = true → w'.load < w'.capacity →
      w.isOnline = true ∧ w.load < w.capacity) : r.Offers task := by
  obtain ⟨x, worker, hx, hon, hload, hsupports⟩ := h
  rw [find?_put] at hx
  split at hx
  · cases hx
    obtain ⟨hon', hload'⟩ := hfree hon hload
    exact ⟨id, w, hw, hon', hload', hinfo ▸ hsupports⟩
  · exact ⟨x, worker, hx, hon, hload, hsupports⟩

theorem offers_of_disconnect {held : List BuildId} (h : r.disconnect id = .ok (held, r'))
    (hoffers : r'.Offers task) : r.Offers task := by
  obtain ⟨w, hw, -, rfl⟩ := disconnect_eq_ok h
  refine offers_of_put hoffers hw rfl fun hon => ?_
  have hoff : w.disconnect.isOnline = false := rfl
  rw [hoff] at hon
  cases hon

theorem offers_of_heartbeat {usage : Usage} {now : Instant}
    (h : r.heartbeat id usage now = .ok (false, r')) (hoffers : r'.Offers task) :
    r.Offers task := by
  obtain ⟨w, hw, hrevived, rfl⟩ := heartbeat_eq_ok h
  have hon : w.isOnline = true := by simpa using hrevived
  have hbeat : w.beat usage now = { w with lastHeartbeat := now, usage } := if_pos hon
  rw [hbeat] at hoffers
  exact offers_of_put hoffers hw rfl fun hon hload => ⟨hon, hload⟩

end Roster

namespace Ledger

variable {given : List BuildId} {l : Ledger} {b c : Build} {id : BuildId}

/-- The end of a build queues no other. -/
theorem find?_of_archive (hend : c.isTerminal = true) (hb : (l.archive c).find? id = some b)
    (hq : b.status = .queued) : l.find? id = some b := by
  rcases find?_archive_cases hb with ⟨-, rfl⟩ | ⟨-, hbefore⟩
  · exact absurd hq (Build.ne_queued_of_isTerminal hend)
  · exact hbefore

end Ledger

namespace Pool

/-- Some queued build can be given to a worker now. -/
def Assignable (p : Pool) : Prop :=
  ∃ id b, p.ledger.find? id = some b ∧ b.status = .queued ∧ p.roster.Offers b.task

/-- Either the scheduler has a wake-up to take, or it could do nothing. -/
def Calm (p : Pool) : Prop := p.wakeUp = true ∨ ¬ p.Assignable

variable {p p' : Pool} {given : List BuildId} {now : Instant} {id : BuildId} {w : WorkerId}

theorem not_assignable_pass (h : p.Sound given) (now : Instant) :
    ¬ (p.pass now).2.Assignable := by
  rintro ⟨id, b, hb, hq, w, worker, hworker, hon, hload, hsupports⟩
  have hfull := (fair_pass h now hb hq hworker hsupports).1
  rw [Worker.hasFreeSlot, hon, decide_eq_true hload] at hfull
  cases hfull

/-- Nothing new waits in the queue of the second pool, and no new slot is on offer. -/
structure AddsNothing (p p' : Pool) : Prop where
  queued : ∀ id b, p'.ledger.find? id = some b → b.status = .queued → p.ledger.find? id = some b
  offers : ∀ task, p'.roster.Offers task → p.roster.Offers task

theorem AddsNothing.calm (h : p.AddsNothing p') (hkeeps : p.Keeps p') (hcalm : p.Calm) :
    p'.Calm := by
  rcases hcalm with hwake | hstuck
  · exact .inl (hkeeps.wakeUp hwake)
  · refine .inr ?_
    rintro ⟨id, b, hb, hq, hoffers⟩
    exact hstuck ⟨id, b, h.queued id b hb hq, hq, h.offers b.task hoffers⟩

/-! ## Reports -/

theorem complete_wakeUp {r : Report} {held : Bool} (h : p.Sound given)
    (hlimit : 1 ≤ p.ledger.historyLimit) (hs : p.complete now id r = .ok (held, p')) :
    p' = p ∨ p'.wakeUp = true := by
  rcases complete_cases h.ledger.records hlimit hs with ⟨-, rfl⟩ | ⟨-, b, l, -, -, -, rfl⟩
  · exact .inl rfl
  · exact .inr (announceCompletion_wakeUp _ _ _).2

/-! ## Cancellations and heartbeats -/

theorem cancel_wakeUp {answer : Cancellation} (hs : p.cancel now id = .ok (answer, p')) :
    p'.wakeUp = true ∨ p'.roster = p.roster := by
  obtain ⟨l, -, rfl⟩ := cancel_eq_ok hs
  split
  · cases hreleased : answer.released with
    | none => exact .inr (tables_announceCancellation _ _ _ _).2
    | some w => exact .inl (wakeUp_announceCancellation _ _ _ w)
  · exact .inr rfl

theorem heartbeat_wakeUp {usage : Usage} (hs : p.heartbeat now w usage = .ok p') :
    p'.wakeUp = true ∨ ∀ task, p'.roster.Offers task → p.roster.Offers task := by
  obtain ⟨⟨revived, r⟩, hr, hs⟩ := Refusal.of_bind_eq_ok hs
  simp only at hs
  cases revived with
  | false =>
    cases hs
    exact .inr fun task => Roster.offers_of_heartbeat hr
  | true =>
    -- A worker that came back is in the roster, so it is announced.
    obtain ⟨x, hx⟩ := Roster.find?_of_heartbeat hr
    rw [hx] at hs
    cases hs
    exact .inl rfl

/-! ## Scans -/

/-- What a scan has done so far: the queue is that of before with the builds that came back, and
the slots on offer were on offer before. -/
structure Scanned (l : Ledger) (r : Roster) (s : Scanning) : Prop where
  queued : ∀ id b, s.ledger.find? id = some b → b.status = .queued →
    l.find? id = some b ∨ id ∈ s.scan.requeued
  offers : ∀ task, s.roster.Offers task → r.Offers task

namespace Scanned

variable {l : Ledger} {r : Roster} {s : Scanning}

theorem takeBuild (h : Scanned l r s) (now : Instant) (w : WorkerId) (id : BuildId) :
    Scanned l r (s.takeBuild now w id) := by
  unfold Scanning.takeBuild
  rcases lose_cases s.ledger id w now with ⟨-, heq⟩ | ⟨b, hb, -, ⟨-, heq⟩ | ⟨-, heq⟩⟩
  · rw [heq]
    exact ⟨h.queued, h.offers⟩
  · rw [heq]
    exact ⟨fun x y hy hq => h.queued x y (find?_of_archive rfl hy hq) hq, h.offers⟩
  · rw [heq]
    refine ⟨fun x y hy hq => ?_, h.offers⟩
    change (s.ledger.put { b with retries := b.retries + 1 }.requeue).find? x = some y at hy
    change l.find? x = some y ∨ x ∈ s.scan.requeued ++ [id]
    rw [List.mem_append, List.mem_singleton]
    rw [find?_put] at hy
    split at hy
    · rename_i hx
      have hid : b.id = id := id_of_find? hb
      exact .inr (.inr (hx.trans hid))
    · rcases h.queued x y hy hq with hold | hback
      · exact .inl hold
      · exact .inr (.inl hback)

theorem foldl_takeBuild (h : Scanned l r s) (now : Instant) (w : WorkerId)
    (held : List BuildId) : Scanned l r (held.foldl (Scanning.takeBuild now w) s) := by
  induction held generalizing s with
  | nil => exact h
  | cons id rest ih => exact ih (h.takeBuild now w id)

theorem takeWorker (h : Scanned l r s) (now : Instant) (w : WorkerId) :
    Scanned l r (s.takeWorker now w) := by
  unfold Scanning.takeWorker
  split
  · exact h
  · rename_i held roster hr
    have hgone : Scanned l r { s with roster } :=
      ⟨h.queued, fun task hoffers => h.offers task (Roster.offers_of_disconnect hr hoffers)⟩
    have htaken := hgone.foldl_takeBuild now w held
    exact ⟨htaken.queued, htaken.offers⟩

theorem foldl_takeWorker (h : Scanned l r s) (now : Instant) (lost : List WorkerId) :
    Scanned l r (lost.foldl (Scanning.takeWorker now) s) := by
  induction lost generalizing s with
  | nil => exact h
  | cons w rest ih => exact ih (h.takeWorker now w)

end Scanned

theorem requeued_of_offline (now : Instant) (lost : List WorkerId) (s : Scanning)
    (h : s.scan.offline = [] → s.scan.requeued = []) :
    (lost.foldl (Scanning.takeWorker now) s).scan.offline = [] →
      (lost.foldl (Scanning.takeWorker now) s).scan.requeued = [] := by
  induction lost generalizing s with
  | nil => exact h
  | cons w rest ih =>
    refine ih (s.takeWorker now w) ?_
    unfold Scanning.takeWorker
    split
    · exact h
    · intro hnone
      exact absurd hnone (by simp)

theorem announceScan_wakeUp {scan : Scan} (p : Pool) (now : Instant)
    (hoffline : scan.offline ≠ []) (hrequeued : scan.requeued ≠ []) :
    (p.announceScan now scan).wakeUp = true := by
  unfold announceScan
  rw [if_neg (by simpa using hoffline)]
  dsimp only
  rw [if_neg (by simpa using hrequeued)]
  rfl

theorem scan_wakeUp (p : Pool) (now judged : Instant) :
    (p.scan now judged).2.wakeUp = true ∨ p.AddsNothing (p.scan now judged).2 := by
  have hstart : Scanned p.ledger p.roster ⟨p.ledger, p.roster, {}⟩ :=
    ⟨fun _ _ hb _ => .inl hb, fun _ hoffers => hoffers⟩
  have hscanned := hstart.foldl_takeWorker now (p.roster.stale judged p.heartbeatTimeout)
  have hnamed := requeued_of_offline now (p.roster.stale judged p.heartbeatTimeout)
    ⟨p.ledger, p.roster, {}⟩ fun _ => rfl
  unfold scan
  dsimp only
  generalize (p.roster.stale judged p.heartbeatTimeout).foldl (Scanning.takeWorker now)
    ⟨p.ledger, p.roster, {}⟩ = s at hscanned hnamed
  by_cases hrequeued : s.scan.requeued = []
  · right
    obtain ⟨hledger, hroster⟩ :=
      tables_announceScan { p with ledger := s.ledger, roster := s.roster } now s.scan
    constructor
    · intro id b hb hq
      rw [hledger] at hb
      rcases hscanned.queued id b hb hq with hold | hback
      · exact hold
      · rw [hrequeued] at hback
        cases hback
    · intro task hoffers
      rw [hroster] at hoffers
      exact hscanned.offers task hoffers
  · exact .inl (announceScan_wakeUp _ now (fun hnone => hrequeued (hnamed hnone)) hrequeued)

end Pool

/-! ## Every operation -/

namespace Course

variable {c : Course} {op : Op}

/-- The queue grows by submissions, by losses, and by deliveries that fail. -/
theorem queued_after (h : c.Sound) (hadmits : c.Admits op)
    (hsubmit : ∀ now r id, op ≠ .submit now r id) (hback : op.cause ≠ some .rollback)
    (hloss : op.cause ≠ some .loss) (id : BuildId) (b : Build)
    (hb : (c.after op).pool.ledger.find? id = some b) (hq : b.status = .queued) :
    c.pool.ledger.find? id = some b := by
  cases hfind : c.pool.ledger.find? id with
  | none =>
    obtain ⟨now, r, rfl, -⟩ := eq_submit_of_new h hadmits hfind hb
    exact absurd rfl (hsubmit now r id)
  | some x =>
    rcases makes_of_find? h hadmits hfind hb with rfl | ⟨-, k, maxRetries, hcause, hchange⟩
    · rfl
    · rcases hchange.of_queued hq with rfl | rfl
      · exact absurd hcause hback
      · exact absurd hcause hloss

theorem wakeUp_enter {α : Type} {result : Except Refusal (α × Pool)}
    (hp : ∀ a p, result = .ok (a, p) →
      p.wakeUp = true ∨ ∀ task, p.roster.Offers task → c.pool.roster.Offers task) :
    (c.enter result).pool.wakeUp = true ∨
      ∀ task, (c.enter result).pool.roster.Offers task → c.pool.roster.Offers task :=
  of_enter (P := fun p => p.wakeUp = true ∨ ∀ task, p.roster.Offers task →
    c.pool.roster.Offers task) (.inr fun _ hoffers => hoffers) hp

/-- A slot becomes free with a wake-up, unless a delivery fails. -/
theorem offers_after (h : c.Sound) (hlimited : c.Limited) (hpass : ∀ now, op ≠ .pass now)
    (hfail : ∀ place, op ≠ .undelivered place)
    (hrestart : ∀ now config caching, op ≠ .restart now config caching) :
    (c.after op).pool.wakeUp = true ∨
      ∀ task, (c.after op).pool.roster.Offers task → c.pool.roster.Offers task := by
  have hsame : ∀ task, c.pool.roster.Offers task → c.pool.roster.Offers task :=
    fun _ hoffers => hoffers
  cases op with
  | submit now r id =>
    simp only [after]
    split
    · rename_i b p hp
      exact .inl (Pool.submitAs_wakeUp hp).2
    · exact .inr hsame
  | cancel now id =>
    refine wakeUp_enter fun answer p hp => ?_
    rcases Pool.cancel_wakeUp hp with hwake | hroster
    · exact .inl hwake
    · exact .inr fun task hoffers => hroster ▸ hoffers
  | progress now id w amount =>
    refine wakeUp_enter fun held p hp => .inr fun task hoffers => ?_
    rcases Pool.progress_eq_ok hp with rfl | ⟨l, -, -, hroster⟩
    · exact hoffers
    · exact hroster ▸ hoffers
  | complete now id r =>
    have hlimit := hlimited.one_le_historyLimit
    refine wakeUp_enter fun held p hp => ?_
    rcases Pool.complete_wakeUp h.pool hlimit hp with rfl | hwake
    · exact .inr hsame
    · exact .inl hwake
  | satisfy now id artifacts =>
    refine .inr fun task hoffers => ?_
    simp only [after, Pool.satisfy] at hoffers
    split at hoffers
    · exact hoffers
    · exact hoffers
  | register now info =>
    exact wakeUp_enter fun worker p hp => .inl (Pool.register_wakeUp hp).2
  | heartbeat now w usage =>
    exact wakeUp_enter fun u p hp => Pool.heartbeat_wakeUp (eq_ok_of_map hp)
  | pass now => exact absurd rfl (hpass now)
  | delivered now place =>
    refine .inr fun task hoffers => ?_
    simp only [after, Pool.delivered] at hoffers
    split at hoffers
    · split at hoffers
      · exact hoffers
      · exact hoffers
    · exact hoffers
  | undelivered place => exact absurd rfl (hfail place)
  | wake => exact .inl rfl
  | scan now judged =>
    rcases Pool.scan_wakeUp c.pool now judged with hwake | hnothing
    · exact .inl hwake
    · exact .inr hnothing.offers
  | takeWakeUp | takeSaveRequest => exact .inr hsame
  | restart now config caching => exact absurd rfl (hrestart now config caching)

/-- Whatever happens, either the scheduler is woken or it still could do nothing. -/
theorem calm_after (h : c.Sound) (hlimited : c.Limited) (hadmits : c.Admits op)
    (hcalm : c.pool.Calm) (htake : op ≠ .takeWakeUp) (hfail : ∀ place, op ≠ .undelivered place)
    (hrestart : ∀ now config caching, op ≠ .restart now config caching) :
    (c.after op).pool.Calm := by
  have hkeeps := keeps_after c htake hrestart
  by_cases hpass : ∃ now, op = .pass now
  · obtain ⟨now, rfl⟩ := hpass
    exact .inr (Pool.not_assignable_pass h.pool now)
  by_cases hscan : ∃ now judged, op = .scan now judged
  · obtain ⟨now, judged, rfl⟩ := hscan
    rcases Pool.scan_wakeUp c.pool now judged with hwake | hnothing
    · exact .inl hwake
    · exact hnothing.calm hkeeps hcalm
  by_cases hsubmit : ∃ now r id, op = .submit now r id
  · obtain ⟨now, r, id, rfl⟩ := hsubmit
    simp only [after]
    split
    · rename_i b p hp
      exact .inl (Pool.submitAs_wakeUp hp).2
    · exact hcalm
  rcases offers_after h hlimited (fun now heq => hpass ⟨now, heq⟩) hfail hrestart with
    hwake | hoffers
  · exact .inl hwake
  · refine Pool.AddsNothing.calm ⟨?_, hoffers⟩ hkeeps hcalm
    refine queued_after h hadmits (fun now r id heq => hsubmit ⟨now, r, id, heq⟩) ?_ ?_
    · intro hback
      cases op with
      | undelivered place => exact hfail place rfl
      | _ => cases hback
    · intro hloss
      cases op with
      | scan now judged => exact hscan ⟨now, judged, rfl⟩
      | restart now config caching => exact hrestart now config caching rfl
      | _ => cases hloss

end Course

end BuildPool
