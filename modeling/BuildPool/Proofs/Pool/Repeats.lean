import BuildPool.Proofs.Pool.Wakeups
import BuildPool.Proofs.Pool.Restarts
import BuildPool.Proofs.Pool.Attempts

/-!
# Requests that come twice

Clients and workers ask again when an answer is lost. The second of two equal requests finds nothing
to do, whatever the first one did: it is refused, or its answer says so, and the pool stays as it
is. A worker may repeat what it said of itself or of the progress of a build; it says nothing new.
-/

namespace BuildPool

open BuildPool.Time Ledger

/-! ## Builds that are not open -/

namespace Ledger

variable {l : Ledger} {b : Build} {id : BuildId} {now : Instant}

/-- The build ended, or is not known. -/
def Closed (l : Ledger) (id : BuildId) : Prop := ∀ b, l.find? id = some b → b.isTerminal = true

theorem closed_of_find? (hb : l.find? id = some b) (hend : b.isTerminal = true) : l.Closed id := by
  intro x hx
  rw [hb] at hx
  cases hx
  exact hend

/-- A build that ends now is kept or dropped at once. -/
theorem closed_archive (l : Ledger) (hend : b.isTerminal = true) : (l.archive b).Closed b.id := by
  intro x hx
  rcases find?_archive_cases hx with ⟨-, rfl⟩ | ⟨hne, -⟩
  · exact hend
  · exact absurd rfl hne

theorem Closed.not_heldBy {w : WorkerId} (h : l.Closed id) : ¬ l.HeldBy id w := by
  rintro ⟨b, hb, hheld⟩
  have hopen := Build.isTerminal_eq_false_of_heldBy hheld
  rw [h b hb] at hopen
  cases hopen

end Ledger

namespace Pool

variable {p p' : Pool} {given : List BuildId} {now : Instant} {id : BuildId} {w : WorkerId}
  {a : Assignment} {α : Type}

/-- The operation is refused, or it gives an answer of this kind and changes nothing. -/
def Idle (p : Pool) (answer : α → Prop) (result : Except Refusal (α × Pool)) : Prop :=
  ∀ a p', result = .ok (a, p') → answer a ∧ p' = p

/-! ## Clients -/

theorem idle_cancel (h : p.ledger.Closed id) (now : Instant) :
    p.Idle (fun answer => answer.changed = false) (p.cancel now id) := by
  intro answer p' hs
  obtain ⟨l, hl, rfl⟩ := cancel_eq_ok hs
  obtain ⟨b, hb, ⟨-, rfl, -⟩ | ⟨hopen, -⟩⟩ := Ledger.cancel_eq_ok hl
  · exact ⟨rfl, if_neg Bool.false_ne_true⟩
  · rw [h b hb] at hopen
    cases hopen

theorem closed_cancel {answer : Cancellation} (hs : p.cancel now id = .ok (answer, p')) :
    p'.ledger.Closed id := by
  obtain ⟨l, hl, rfl⟩ := cancel_eq_ok hs
  obtain ⟨b, hb, ⟨hend, rfl, -⟩ | ⟨-, rfl, rfl⟩⟩ := Ledger.cancel_eq_ok hl
  · exact closed_of_find? hb hend
  · have hclosed := closed_archive p.ledger
      (b := b.finish .cancelled (.failure cancelledReason) now) rfl
    obtain rfl := id_of_find? hb
    rw [if_pos rfl, (tables_announceCancellation _ _ _ _).1]
    split
    · rw [ledger_free]
      exact hclosed
    · exact hclosed

/-! ## Reports -/

theorem idle_complete (h : p.ledger.Closed id) (now : Instant) (r : Report) :
    p.Idle (fun accepted => accepted = false) (p.complete now id r) := by
  intro accepted p' hs
  obtain ⟨answer, hl, hs⟩ := Refusal.of_bind_eq_ok hs
  cases answer with
  | none =>
    cases hs
    exact ⟨rfl, rfl⟩
  | some l =>
    obtain ⟨b, hb, hheld, -⟩ := Ledger.complete_eq_ok hl
    exact absurd ⟨b, hb, hheld⟩ h.not_heldBy

/-- A report is turned down, or it closes the build. -/
theorem complete_closes {r : Report} {accepted : Bool}
    (hs : p.complete now id r = .ok (accepted, p')) :
    (accepted = false ∧ p' = p) ∨
      (∃ b, p.ledger.find? id = some b) ∧ p'.ledger.Closed id := by
  obtain ⟨answer, hl, hs⟩ := Refusal.of_bind_eq_ok hs
  cases answer with
  | none =>
    cases hs
    exact .inl ⟨rfl, rfl⟩
  | some l =>
    obtain ⟨b, hb, -, rfl⟩ := Ledger.complete_eq_ok hl
    have hclosed := closed_archive p.ledger (b := b.finish (verdict r).1 (verdict r).2 now)
      (isTerminal_verdict r)
    obtain rfl := id_of_find? hb
    refine .inr ⟨⟨b, hb⟩, ?_⟩
    dsimp only at hs
    split at hs
    · cases hs
      rw [ledger_free]
      exact hclosed
    · cases hs
      rw [(tables_announceCompletion _ _ _).1, ledger_free]
      exact hclosed

/-- There is no news in the progress of a build that was already noted. -/
theorem idle_progress {b : Build} {amount : Float} (hb : p.ledger.find? id = some b)
    (hstarted : b.status ≠ .assigned) (hsame : b.advance amount = b) :
    p.Idle (fun _ => True) (p.progress now id w amount) := by
  intro held p' hs
  refine ⟨trivial, ?_⟩
  unfold progress at hs
  split at hs
  · obtain ⟨answer, hl, hs⟩ := Refusal.of_bind_eq_ok hs
    cases answer with
    | none =>
      cases hs
      rfl
    | some l =>
      obtain ⟨x, hx, -, rfl⟩ := Ledger.progress_eq_ok hl
      rw [hb] at hx
      cases hx
      obtain rfl := id_of_find? hb
      rw [hsame, put_of_find? hb, hb] at hs
      have hwas : ((some b).any fun x => x.status == .assigned) = false := by simp [hstarted]
      rw [hwas] at hs
      cases hs
      rfl
  · cases hs

theorem progress_again {amount : Float} {held : Bool}
    (hs : p.progress now id w amount = .ok (held, p')) :
    p'.Idle (fun _ => True) (p'.progress now id w amount) := by
  rcases progress_eq_ok hs with rfl | ⟨l, hl, hledger, -⟩
  · intro held' p'' hs'
    rw [hs] at hs'
    cases hs'
    exact ⟨trivial, rfl⟩
  · obtain ⟨b, hb, -, rfl⟩ := Ledger.progress_eq_ok hl
    obtain rfl := id_of_find? hb
    have hafter : p'.ledger.find? b.id = some (b.advance amount) := by
      rw [hledger, ← b.advance_id amount]
      exact find?_put_self _ _
    exact idle_progress hafter (b.advance_ne_assigned amount) (b.advance_advance amount)

/-! ## The cache -/

theorem satisfy_of_closed (h : p.ledger.Closed id) (now : Instant) (artifacts : List String) :
    p.satisfy now id artifacts = (false, p) := by
  unfold satisfy
  split
  · rfl
  · rename_i l hl
    obtain ⟨b, hb, hq, -⟩ := satisfy?_eq_some hl
    exact absurd hq (Build.ne_queued_of_isTerminal (h b hb))

theorem satisfy_again (p : Pool) (now : Instant) (id : BuildId) (artifacts : List String) :
    let q := (p.satisfy now id artifacts).2
    q.satisfy now id artifacts = (false, q) := by
  intro q
  cases hl : p.ledger.satisfy? id artifacts now with
  | none =>
    have hnone : p.satisfy now id artifacts = (false, p) := by rw [satisfy, hl]
    have hq : q = p := congrArg Prod.snd hnone
    rw [hq]
    exact hnone
  | some l =>
    have hq : q.ledger = l := by
      change (p.satisfy now id artifacts).2.ledger = l
      rw [satisfy, hl]
      rfl
    obtain ⟨b, hb, -, rfl⟩ := satisfy?_eq_some hl
    obtain rfl := id_of_find? hb
    apply satisfy_of_closed
    rw [hq]
    exact closed_archive _ (b := b.finish .completed { success := true, artifacts } now) rfl

/-! ## Deliveries -/

theorem acknowledge?_of_not_awaits (h : ¬ p.Awaits a) :
    p.ledger.acknowledge? a.build a.worker a.attempt = none := by
  cases hl : p.ledger.acknowledge? a.build a.worker a.attempt with
  | none => rfl
  | some l =>
    obtain ⟨b, hb, ha, -⟩ := acknowledge?_eq_some hl
    exact absurd (awaits_iff.2 ⟨b, hb, ha⟩) h

theorem rollback?_of_not_awaits (h : ¬ p.Awaits a) :
    p.ledger.rollback? a.build a.worker a.attempt = none := by
  cases hl : p.ledger.rollback? a.build a.worker a.attempt with
  | none => rfl
  | some l =>
    obtain ⟨b, hb, ha, -⟩ := rollback?_eq_some hl
    exact absurd (awaits_iff.2 ⟨b, hb, ha⟩) h

theorem not_awaits_of_find? {b : Build} (hb : p.ledger.find? a.build = some b)
    (hs : b.status ≠ .assigned) : ¬ p.Awaits a := by
  rintro ⟨x, hx, hassigned, -⟩
  rw [hb] at hx
  cases hx
  exact hs hassigned

/-- A build that was started does not wait to be started. -/
theorem not_awaits_delivered (p : Pool) (now : Instant) (a : Assignment) :
    ¬ (p.delivered now a).Awaits a := by
  by_cases h : p.Awaits a
  · obtain ⟨b, hb, ha⟩ := awaits_iff.1 h
    have hafter : (p.delivered now a).ledger.find? a.build = some b.start := by
      rw [(tables_delivered hb ha now).1, ← id_of_find? hb]
      exact find?_put_self _ b.start
    exact not_awaits_of_find? hafter fun hs => by cases hs
  · rw [delivered_of_not_awaits h]
    exact h

theorem not_awaits_undelivered (p : Pool) (a : Assignment) : ¬ (p.undelivered a).Awaits a := by
  by_cases h : p.Awaits a
  · obtain ⟨b, hb, ha⟩ := awaits_iff.1 h
    have hafter : (p.undelivered a).ledger.find? a.build = some b.requeue := by
      rw [(tables_undelivered hb ha).1, ← id_of_find? hb]
      exact find?_put_self _ b.requeue
    exact not_awaits_of_find? hafter fun hs => by cases hs
  · rw [undelivered_of_not_awaits h]
    exact h

/-! ## Workers -/

theorem register_again {info : WorkerInfo} {worker : Worker}
    (hs : p.register now info = .ok (worker, p')) :
    p'.Idle (fun _ => False) (p'.register now info) := by
  intro worker' p'' hs'
  obtain ⟨r, hr, -, hroster⟩ := register_eq_ok hs
  obtain ⟨r', hr', -, -⟩ := register_eq_ok hs'
  obtain ⟨-, -, rfl, rfl⟩ := Roster.register_eq_ok hr
  obtain ⟨-, hnone, -, -⟩ := Roster.register_eq_ok hr'
  rw [hroster, Roster.find?_put] at hnone
  cases hnone.symm.trans (if_pos rfl)

theorem heartbeat_again {usage : Usage} (hs : p.heartbeat now w usage = .ok p') :
    ∀ p'', p'.heartbeat now w usage = .ok p'' → p'' = p' := by
  intro p'' hs'
  obtain ⟨revived, r, hr, -, hroster⟩ := heartbeat_eq_ok hs
  obtain ⟨worker, hworker⟩ := Roster.find?_of_heartbeat hr
  obtain ⟨⟨revived', r'⟩, hr', hs'⟩ := Refusal.of_bind_eq_ok hs'
  obtain ⟨x, hx, rfl, rfl⟩ := Roster.heartbeat_eq_ok hr'
  rw [hroster, hworker] at hx
  cases hx
  obtain rfl := Roster.id_of_find? hworker
  rw [Worker.beat_beat, hroster, Roster.put_of_find? hworker, worker.beat_isOnline] at hs'
  rw [← hroster] at hs'
  cases hs'
  rfl

/-! ## Lost workers -/

theorem heartbeatTimeout_scan (p : Pool) (now judged : Instant) :
    (p.scan now judged).2.heartbeatTimeout = p.heartbeatTimeout :=
  congrArg (fun c : Config => (c.heartbeatMillis : Int) * nanosPerMilli)
    (p.keeps_scan now judged).config

/-- Whoever was silent for too long is offline after a scan. -/
theorem stale_scan (p : Pool) (now judged : Instant) :
    (p.scan now judged).2.roster.stale judged p.heartbeatTimeout = [] := by
  obtain ⟨roster, heq, -, hfind⟩ := p.scan_eq now judged
  have hroster : (p.scan now judged).2.roster = roster := by
    rw [heq, (tables_announceScan _ _ _).2]
  refine List.eq_nil_iff_forall_not_mem.2 fun x hx => ?_
  have hlate : ∃ worker : Worker, roster.find? x = some worker ∧ worker.isOnline = true ∧
      p.heartbeatTimeout < judged.since worker.lastHeartbeat := by
    rw [hroster, Roster.stale, List.mem_map] at hx
    obtain ⟨worker, hmem, rfl⟩ := hx
    obtain ⟨hlist, hlate⟩ := List.mem_filter.1 hmem
    rw [Bool.and_eq_true, decide_eq_true_eq] at hlate
    exact ⟨worker, Roster.mem_list_iff.1 hlist, hlate⟩
  obtain ⟨worker, hworker, hon, hsilent⟩ := hlate
  rw [hfind] at hworker
  split at hworker
  · obtain ⟨old, -, rfl⟩ := Option.map_eq_some_iff.1 hworker
    cases hon
  · rename_i hkept
    apply hkept
    rw [Roster.stale, List.mem_map]
    refine ⟨worker, List.mem_filter.2 ⟨Roster.mem_list_of_find? hworker, ?_⟩,
      Roster.id_of_find? hworker⟩
    rw [hon, decide_eq_true hsilent]
    rfl

theorem scan_again (p : Pool) (now judged : Instant) :
    let q := (p.scan now judged).2
    q.scan now judged = ({}, q) := by
  intro q
  apply scan_of_stale_nil
  rw [heartbeatTimeout_scan]
  exact stale_scan p now judged

/-! ## Passes -/

theorem placements_of_not_assignable (h : ¬ p.Assignable) :
    p.roster.allot p.ledger.queue = ([], p.roster) := by
  refine Roster.allot_of_unselected fun b hb => Roster.select_eq_none_iff.2 ?_
  intro x worker hworker hsupports
  obtain ⟨hfind, hq⟩ := mem_queue_iff.1 hb
  rw [← Bool.not_eq_true, Worker.hasFreeSlot, Bool.and_eq_true, decide_eq_true_eq]
  rintro ⟨hon, hload⟩
  exact h ⟨b.id, b, hfind, hq, x, worker, hworker, hon, hload, hsupports⟩

/-- A pass that finds nothing to assign leaves everything but the shape of the backlog. -/
theorem pass_of_not_assignable (h : p.Sound given) (hnone : ¬ p.Assignable) (now : Instant) :
    (p.pass now).1.assignments = [] ∧ (p.pass now).2.ledger.view = p.ledger.view ∧
      (p.pass now).2.roster = p.roster ∧ (p.pass now).2.journal = p.journal := by
  have hallot := placements_of_not_assignable hnone
  have hsound := (sound_pass h now).ledger
  obtain ⟨hassignments, backlog, heq⟩ := pass_eq h now
  rw [placements, hallot] at hassignments
  rw [placements, hallot] at heq
  have halike : Alike p.ledger (p.pass now).2.ledger := ⟨backlog, by rw [heq]; rfl⟩
  refine ⟨hassignments, halike.view_eq h.ledger hsound, ?_, ?_⟩
  · rw [heq]
  · rw [heq]

end Pool

/-! ## Every operation -/

namespace Course

variable {c d : Course} {ops : List Op} {id : BuildId} {α : Type}

/-- A build that is not open is never open again. -/
theorem Run.closed (h : c.Sound) (hrun : Run c ops d) (hid : id ∈ c.given)
    (hclosed : c.pool.ledger.Closed id) : d.pool.ledger.Closed id := by
  intro b' hb'
  obtain ⟨b, hb, -, hsame⟩ := hrun.evolves h id hid b' hb'
  have hend := hclosed b hb
  rw [hsame hend]
  exact hend

/-- An operation that was refused is refused again. -/
theorem idle_enter {f : Pool → Except Refusal (α × Pool)} {answer : α → Prop}
    (h : ∀ a p, f c.pool = .ok (a, p) → p.Idle answer (f p)) :
    (c.enter (f c.pool)).pool.Idle answer (f (c.enter (f c.pool)).pool) := by
  unfold enter
  split
  · rename_i a p hs
    exact h a p hs
  · rename_i e hs
    intro a p hok
    rw [hs] at hok
    cases hok

/-- Of two equal requests, one right after the other, the second has nothing to do. -/
structure BearsRepeats (c : Course) : Prop where
  cancel : ∀ now id,
    let p := (c.after (.cancel now id)).pool
    p.Idle (fun answer => answer.changed = false) (p.cancel now id)
  complete : ∀ now id r,
    let p := (c.after (.complete now id r)).pool
    p.Idle (fun accepted => accepted = false) (p.complete now id r)
  satisfy : ∀ now id artifacts,
    let p := (c.after (.satisfy now id artifacts)).pool
    p.satisfy now id artifacts = (false, p)
  delivered : ∀ now a,
    let p := c.pool.delivered now a
    p.ledger.acknowledge? a.build a.worker a.attempt = none ∧ p.delivered now a = p
  undelivered : ∀ a,
    let p := c.pool.undelivered a
    p.ledger.rollback? a.build a.worker a.attempt = none ∧ p.undelivered a = p
  progress : ∀ now id w amount,
    let p := (c.after (.progress now id w amount)).pool
    p.Idle (fun _ => True) (p.progress now id w amount)
  register : ∀ now info,
    let p := (c.after (.register now info)).pool
    p.Idle (fun _ => False) (p.register now info)
  heartbeat : ∀ now w usage,
    let p := (c.after (.heartbeat now w usage)).pool
    p.Idle (fun _ => True) ((p.heartbeat now w usage).map ((), ·))
  scan : ∀ now judged,
    let p := (c.after (.scan now judged)).pool
    p.scan now judged = ({}, p)
  pass : ∀ now,
    let p := (c.after (.pass now)).pool
    (p.pass now).1.assignments = [] ∧ (p.pass now).2.ledger.view = p.ledger.view ∧
      (p.pass now).2.roster = p.roster ∧ (p.pass now).2.journal = p.journal
  restart : ∀ config saved now,
    let p := (Pool.recover config (c.pool.capture saved) now).2
    let again := Pool.recover config (p.capture saved) now
    again.1 = [] ∧ again.2.ledger.view = p.ledger.view ∧ again.2.roster = p.roster ∧
      again.2.journal = p.journal
  /-- After a report was accepted, none on that build is accepted in all that follows. -/
  finished : ∀ now id r p, c.pool.complete now id r = .ok (true, p) →
    ∀ ops d, Run (c.after (.complete now id r)) ops d → ∀ now' r',
      d.pool.Idle (fun accepted => accepted = false) (d.pool.complete now' id r')
  /-- The same holds of a build that ended in another way. -/
  ended : ∀ id b, c.pool.ledger.find? id = some b → b.isTerminal = true →
    ∀ ops d, Run c ops d → ∀ now r,
      d.pool.Idle (fun accepted => accepted = false) (d.pool.complete now id r)

theorem Sound.bearsRepeats (h : c.Sound) : c.BearsRepeats := by
  constructor
  case cancel =>
    intro now id
    exact idle_enter fun _ _ hs => Pool.idle_cancel (Pool.closed_cancel hs) now
  case complete =>
    intro now id r
    refine idle_enter (f := fun p => p.complete now id r) fun accepted p hs => ?_
    rcases Pool.complete_closes hs with ⟨rfl, rfl⟩ | ⟨-, hclosed⟩
    · intro accepted' p' hs'
      rw [hs] at hs'
      cases hs'
      exact ⟨rfl, rfl⟩
    · exact Pool.idle_complete hclosed now r
  case satisfy => exact c.pool.satisfy_again
  case delivered =>
    intro now a
    have hdone := c.pool.not_awaits_delivered now a
    exact ⟨Pool.acknowledge?_of_not_awaits hdone, Pool.delivered_of_not_awaits hdone now⟩
  case undelivered =>
    intro a
    have hdone := c.pool.not_awaits_undelivered a
    exact ⟨Pool.rollback?_of_not_awaits hdone, Pool.undelivered_of_not_awaits hdone⟩
  case progress =>
    intro now id w amount
    exact idle_enter fun _ _ hs => Pool.progress_again hs
  case register =>
    intro now info
    exact idle_enter fun _ _ hs => Pool.register_again hs
  case heartbeat =>
    intro now w usage
    refine idle_enter (f := fun p => (p.heartbeat now w usage).map ((), ·)) ?_
    intro _ p hs _ p' hs'
    exact ⟨trivial, Pool.heartbeat_again (eq_ok_of_map hs) p' (eq_ok_of_map hs')⟩
  case scan => exact c.pool.scan_again
  case pass =>
    intro now
    exact Pool.pass_of_not_assignable (Pool.sound_pass h.pool now)
      (Pool.not_assignable_pass h.pool now) now
  case restart =>
    intro config saved now
    have hsame : config.maxRetries = config.maxRetries := rfl
    obtain ⟨hnone, hview, hroster⟩ := Pool.recover_again h.pool hsame rfl saved now saved now
    exact ⟨hnone, hview, hroster, rfl⟩
  case finished =>
    intro now id r p hs ops d hrun now' r'
    have hafter : (c.after (.complete now id r)).Sound := sound_after h trivial
    have hpool : (c.after (.complete now id r)).pool = p := by
      simp only [after, hs]
      rfl
    obtain ⟨⟨b, hb⟩, hclosed⟩ := (Pool.complete_closes hs).resolve_left fun hno => by cases hno.1
    have hid := (h.pool.ledger.records.numbered id b hb).mem
    have hgiven := (given_after c (.complete now id r)).subset hid
    rw [← hpool] at hclosed
    exact Pool.idle_complete (hrun.closed hafter hgiven hclosed) now' r'
  case ended =>
    intro id b hb hend ops d hrun now r
    have hid := (h.pool.ledger.records.numbered id b hb).mem
    exact Pool.idle_complete (hrun.closed h hid (closed_of_find? hb hend)) now r

/-- In every reachable pool, whatever comes twice does no more than what comes once. -/
theorem bears_repeats (h : c.Reachable) : c.BearsRepeats := h.sound.bearsRepeats

/-- A worker has a build, and its report is accepted. -/
theorem bears_repeats_twoBuilds :
    let c := twoBuilds.after (.pass ⟨3, 0⟩)
    let report : Report := { worker := ⟨"w"⟩, success := true }
    c.Reachable ∧
      (c.pool.complete ⟨4, 0⟩ ⟨"b"⟩ report).toOption.map Prod.fst = some true ∧ c.BearsRepeats := by
  have h := reachable_twoBuilds.after (.pass ⟨3, 0⟩) trivial
  exact ⟨h, rfl, bears_repeats h⟩

end Course

end BuildPool
