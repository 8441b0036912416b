import BuildPool.Proofs.Pool.Milestones
import BuildPool.Proofs.Roster.Presence

/-!
# Notices

What a pool publishes in the course of an operation: one notice for each milestone that builds pass,
and the new status of each worker that comes or goes. Nothing else is published.
-/

namespace BuildPool

open BuildPool.Time Ledger

/-- What the monitor hears of a build, but for the time. -/
inductive Notice
  | started (build : BuildId) (worker : Option WorkerId) (task : String)
  | finished (build : BuildId) (status : BuildStatus) (duration : Option UInt64)
      (error : Option String)
deriving DecidableEq

def Notice.build : Notice → BuildId
  | .started id .. | .finished id .. => id

def Notice.isEnd : Notice → Bool
  | .started .. => false
  | .finished .. => true

def Event.notice? : Event → Option Notice
  | .buildStarted id w task _ => some (.started id (some w) task)
  | .buildFinished id status duration error _ => some (.finished id status (some duration) error)
  | .workerChanged .. => none

/-- What there is to say of a milestone, read off the record. -/
def Milestone.notice : Milestone → Notice
  | .started b => .started b.id b.worker b.task
  | .finished b => .finished b.id b.status (b.outcome.map Outcome.duration) b.error?

/-- The status that an event gives a worker. -/
def Event.statusOf? (w : WorkerId) : Event → Option WorkerStatus
  | .workerChanged x status _ => if x = w then some status else none
  | .buildStarted .. | .buildFinished .. => none

/-- The last status that the monitor heard of a worker. -/
def lastTold (news : List Event) (w : WorkerId) : Option WorkerStatus :=
  (news.filterMap (Event.statusOf? w)).getLast?

/-! ## News -/

section News

variable {news more : List Event} {e : Event} {m : Milestone} {w x : WorkerId} {now : Instant}

theorem Milestone.notice_build (m : Milestone) : m.notice.build = m.build.id := by
  cases m <;> rfl

theorem Milestone.notice_isEnd (m : Milestone) : m.notice.isEnd = m.isEnd := by
  cases m <;> rfl

theorem Event.statusOf?_eq_none {n : Notice} (h : e.notice? = some n) (w : WorkerId) :
    e.statusOf? w = none := by
  cases e with
  | workerChanged => cases h
  | buildStarted | buildFinished => rfl

theorem notice?_buildStarted {b : Build} {id : BuildId} {task : String} (hid : b.id = id)
    (hworker : b.worker = some w) (htask : b.task = task) (now : Instant) :
    (Event.buildStarted id w task now).notice? = some (Milestone.started b).notice := by
  subst hid htask
  unfold Milestone.notice
  dsimp only
  rw [hworker]
  rfl

theorem lastTold_append (news more : List Event) (w : WorkerId) :
    lastTold (news ++ more) w = (lastTold more w).or (lastTold news w) := by
  unfold lastTold
  rw [List.filterMap_append, List.getLast?_append]

theorem lastTold_singleton (e : Event) (w : WorkerId) : lastTold [e] w = e.statusOf? w := by
  unfold lastTold
  rw [List.filterMap_cons, List.filterMap_nil]
  cases e.statusOf? w <;> rfl

theorem lastTold_eq_none (h : ∀ e ∈ news, e.statusOf? w = none) : lastTold news w = none := by
  unfold lastTold
  rw [List.filterMap_eq_nil_iff.2 h]
  rfl

/-- All these workers are told to be offline. -/
theorem lastTold_offline (ws : List WorkerId) (now : Instant) (w : WorkerId) :
    lastTold (ws.map fun x => .workerChanged x .offline now) w =
      if w ∈ ws then some .offline else none := by
  induction ws with
  | nil => rfl
  | cons x rest ih =>
    rw [List.map_cons, ← List.singleton_append, lastTold_append, ih, lastTold_singleton]
    by_cases hrest : w ∈ rest
    · rw [if_pos hrest, if_pos (List.mem_cons_of_mem x hrest)]
      rfl
    · rw [if_neg hrest, Option.none_or]
      by_cases hx : x = w
      · rw [if_pos (hx ▸ List.mem_cons_self)]
        exact if_pos hx
      · rw [if_neg (List.not_mem_cons_of_ne_of_not_mem (fun heq => hx heq.symm) hrest)]
        exact if_neg hx

end News

namespace Pool

variable {p p' p'' : Pool} {given : List BuildId} {now : Instant} {id : BuildId} {w : WorkerId}
  {m : Milestone} {ms ms' : List Milestone} {e : Event} {l : Ledger}

/-! ## What is announced -/

/-- What was published from one pool to the next tells of these milestones, and which workers came
or went. -/
def Announces (p p' : Pool) (ms : List Milestone) : Prop :=
  ∃ news, p'.journal = p.journal ++ news ∧
    news.filterMap Event.notice? = ms.map Milestone.notice ∧
    ∀ w, p'.roster.presence w =
      ((lastTold news w).map (· != .offline)).or (p.roster.presence w)

theorem Announces.trans (h : p.Announces p' ms) (h' : p'.Announces p'' ms') :
    p.Announces p'' (ms ++ ms') := by
  obtain ⟨news, hjournal, hnotices, hpresence⟩ := h
  obtain ⟨news', hjournal', hnotices', hpresence'⟩ := h'
  refine ⟨news ++ news', ?_, ?_, ?_⟩
  · rw [hjournal', hjournal, List.append_assoc]
  · rw [List.filterMap_append, hnotices, hnotices', List.map_append]
  · intro w
    rw [hpresence', hpresence, lastTold_append, Option.map_or, Option.or_assoc]

theorem announces_nothing (hjournal : p'.journal = p.journal)
    (hpresence : ∀ w, p'.roster.presence w = p.roster.presence w) : p.Announces p' [] :=
  ⟨[], by rw [hjournal, List.append_nil], rfl, hpresence⟩

/-- The builds are as they were. -/
theorem announces_same (hledger : p'.ledger = p.ledger) (hjournal : p'.journal = p.journal)
    (hpresence : ∀ w, p'.roster.presence w = p.roster.presence w) :
    p.Announces p' (p.ledger.milestones p'.ledger) := by
  rw [hledger, milestones_self]
  exact announces_nothing hjournal hpresence

theorem announces_self (p : Pool) : p.Announces p (p.ledger.milestones p.ledger) :=
  announces_same rfl rfl fun _ => rfl

theorem announces_milestone (hjournal : p'.journal = p.journal ++ [e])
    (hnotice : e.notice? = some m.notice)
    (hpresence : ∀ w, p'.roster.presence w = p.roster.presence w) : p.Announces p' [m] := by
  refine ⟨[e], hjournal, ?_, ?_⟩
  · rw [List.filterMap_cons, hnotice]
    rfl
  · intro w
    rw [hpresence, lastTold_singleton, Event.statusOf?_eq_none hnotice]
    rfl

theorem announces_worker {status : WorkerStatus}
    (hjournal : p'.journal = p.journal ++ [.workerChanged w status now])
    (hpresence : ∀ x, p'.roster.presence x =
      if x = w then some (status != .offline) else p.roster.presence x) : p.Announces p' [] := by
  refine ⟨_, hjournal, rfl, ?_⟩
  intro x
  rw [hpresence, lastTold_singleton]
  by_cases hx : x = w
  · rw [if_pos hx, Event.statusOf?, if_pos hx.symm]
    rfl
  · rw [if_neg hx, Event.statusOf?, if_neg fun heq => hx heq.symm]
    rfl

/-! ## Freed slots -/

theorem journal_free (p : Pool) (w : WorkerId) (b : BuildId) :
    (p.free w b).journal = p.journal := by
  unfold free
  split <;> rfl

theorem presence_free (p : Pool) (w : WorkerId) (b : BuildId) (x : WorkerId) :
    (p.free w b).roster.presence x = p.roster.presence x := by
  unfold free
  split
  · rename_i roster hr
    exact Roster.presence_release hr x
  · rfl

/-! ## Clients -/

theorem announces_submitAs {r : Request} {b : Build} (h : Records given p.ledger)
    (hnew : id ∉ given) (hs : p.submitAs now r id = .ok (b, p')) :
    p.Announces p' (p.ledger.milestones p'.ledger) := by
  obtain ⟨l, hl, hledger, hroster⟩ := submitAs_eq_ok hs
  have hjournal : p'.journal = p.journal := by
    obtain ⟨_, -, hs⟩ := Refusal.of_bind_eq_ok hs
    simp only [pure, Except.pure, Except.ok.injEq, Prod.mk.injEq] at hs
    obtain ⟨-, rfl⟩ := hs
    split <;> rfl
  have hnone : p.ledger.milestones p'.ledger = [] := by
    obtain ⟨-, rfl, rfl⟩ := submit_eq_ok (h.find?_eq_none hnew) hl
    rw [hledger]
    apply milestones_eq_nil
    intro x x' hx hx'
    have hne : x'.id ≠ id := by
      intro heq
      rw [heq, h.find?_eq_none hnew] at hx
      cases hx
    have hkept := (find?_put_of_ne p.ledger
      (.ofRequest r id p.ledger.nextSequence now) hne).symm.trans hx'
    cases hx.symm.trans hkept
    exact Milestone.between_self x
  rw [hnone]
  exact announces_nothing hjournal fun w => by rw [hroster]

theorem journal_announceCancellation (p : Pool) (now : Instant) (id : BuildId)
    (released : Option WorkerId) : (p.announceCancellation now id released).journal =
      p.journal ++ [.buildFinished id .cancelled 0 (some cancelledReason) now] := by
  unfold announceCancellation
  dsimp only
  split
  · rfl
  · split <;> rfl

/-- The build was cancelled, and its slot freed if it had one. -/
theorem announces_cancellation {q : Pool} {b : Build}
    (hpassed : p.ledger.milestones l =
      [.finished (b.finish .cancelled (.failure cancelledReason) now)])
    (hledger : q.ledger = l) (hjournal : q.journal = p.journal)
    (hpresence : ∀ w, q.roster.presence w = p.roster.presence w) (released : Option WorkerId) :
    p.Announces (q.announceCancellation now b.id released)
      (p.ledger.milestones (q.announceCancellation now b.id released).ledger) := by
  obtain ⟨htable, hroster⟩ := tables_announceCancellation q now b.id released
  have hnews := journal_announceCancellation q now b.id released
  rw [hjournal] at hnews
  rw [htable, hledger, hpassed]
  refine announces_milestone hnews ?_ ?_
  · rfl
  · intro w
    rw [hroster, hpresence]

theorem announces_cancel {answer : Cancellation} (h : Records given p.ledger)
    (hlimit : 1 ≤ p.ledger.historyLimit) (hs : p.cancel now id = .ok (answer, p')) :
    p.Announces p' (p.ledger.milestones p'.ledger) := by
  obtain ⟨l, hl, rfl⟩ := cancel_eq_ok hs
  rcases rewrites_cancel h hlimit hl with ⟨hsame, -⟩ | ⟨b, hb, hopen, hchanged, hrewrites⟩
  · rw [hsame]
    exact p.announces_self
  · rw [if_pos hchanged]
    have hpassed : p.ledger.milestones l = _ := hrewrites.milestones_eq
    rw [Milestone.between_of_end hopen rfl] at hpassed
    obtain rfl := id_of_find? hb
    cases answer.released with
    | none =>
      exact announces_cancellation (q := { p with ledger := l }) hpassed rfl rfl (fun _ => rfl) none
    | some w =>
      have hledger := ledger_free { p with ledger := l } w b.id
      have hjournal := journal_free { p with ledger := l } w b.id
      have hpresence := presence_free { p with ledger := l } w b.id
      exact announces_cancellation hpassed hledger hjournal hpresence (some w)

/-! ## Reports -/

/-- A sign of life is noted if it comes from the worker that has the build, and the first one is
announced. -/
theorem progress_cases {amount : Float} {held : Bool}
    (hs : p.progress now id w amount = .ok (held, p')) :
    (held = false ∧ p' = p) ∨ (held = true ∧ ∃ b l, p.ledger.find? id = some b ∧
      b.heldBy w = true ∧ Rewrites p.ledger l b (b.advance amount) ∧
      p' = if b.status = .assigned then
          { p with ledger := l }.publish (.buildStarted id w b.task now)
        else { p with ledger := l }) := by
  unfold progress at hs
  split at hs
  · obtain ⟨answer, hl, hs⟩ := Refusal.of_bind_eq_ok hs
    cases answer with
    | none =>
      cases hs
      exact .inl ⟨rfl, rfl⟩
    | some l =>
      obtain ⟨b, hb, hheld, hrewrites⟩ := rewrites_progress hl
      have hid : (b.advance amount).id = id := (b.advance_id amount).trans (id_of_find? hb)
      have hafter : l.find? id = some (b.advance amount) := hid ▸ hrewrites.after
      dsimp only at hs
      rw [hb, hafter] at hs
      by_cases hassigned : b.status = .assigned
      · have hwas : ((some b).any fun x => x.status == .assigned) = true := by simp [hassigned]
        rw [hwas] at hs
        cases hs
        refine .inr ⟨rfl, b, l, hb, hheld, hrewrites, ?_⟩
        rw [if_pos hassigned, b.advance_task]
      · have hwas : ((some b).any fun x => x.status == .assigned) = false := by simp [hassigned]
        rw [hwas] at hs
        cases hs
        refine .inr ⟨rfl, b, l, hb, hheld, hrewrites, ?_⟩
        rw [if_neg hassigned]
  · cases hs

theorem announces_progress {amount : Float} {held : Bool}
    (hs : p.progress now id w amount = .ok (held, p')) :
    p.Announces p' (p.ledger.milestones p'.ledger) := by
  rcases progress_cases hs with ⟨-, rfl⟩ | ⟨-, b, l, hb, hheld, hrewrites, rfl⟩
  · exact announces_self _
  · have hpassed : p.ledger.milestones l = _ := hrewrites.milestones_eq
    rw [Milestone.between_advance hheld] at hpassed
    by_cases hassigned : b.status = .assigned
    · rw [if_pos hassigned] at hpassed ⊢
      change p.Announces _ (p.ledger.milestones l)
      rw [hpassed]
      have hid : (b.advance amount).id = id := (b.advance_id amount).trans (id_of_find? hb)
      have hworker : (b.advance amount).worker = some w :=
        (b.advance_worker amount).trans (Build.heldBy_iff.1 hheld).2
      exact announces_milestone rfl (notice?_buildStarted hid hworker (b.advance_task amount) now)
        fun _ => rfl
    · rw [if_neg hassigned] at hpassed ⊢
      change p.Announces _ (p.ledger.milestones l)
      rw [hpassed]
      exact announces_nothing rfl fun _ => rfl

theorem journal_announceCompletion (p : Pool) (now : Instant) (b : Build) :
    (p.announceCompletion now b).journal =
      p.journal ++ [.buildFinished b.id b.status (b.outcome.getD { success := false }).duration
        (b.outcome.getD { success := false }).error now] := by
  unfold announceCompletion
  dsimp only
  split <;> rfl

/-- A report either changes nothing, or ends the build; the answer says which. -/
theorem complete_cases {r : Report} {held : Bool} (h : Records given p.ledger)
    (hlimit : 1 ≤ p.ledger.historyLimit) (hs : p.complete now id r = .ok (held, p')) :
    (held = false ∧ p' = p) ∨ (held = true ∧ ∃ b l, p.ledger.find? id = some b ∧
      b.heldBy r.worker = true ∧
      Rewrites p.ledger l b (b.finish (verdict r).1 (verdict r).2 now) ∧
      p' = ({ p with ledger := l }.free r.worker id).announceCompletion now
        (b.finish (verdict r).1 (verdict r).2 now)) := by
  obtain ⟨answer, hl, hs⟩ := Refusal.of_bind_eq_ok hs
  cases answer with
  | none =>
    cases hs
    exact .inl ⟨rfl, rfl⟩
  | some l =>
    obtain ⟨b, hb, hheld, hrewrites⟩ := rewrites_complete h hlimit hl
    have hid : b.id = id := id_of_find? hb
    have hafter : l.find? id = some (b.finish (verdict r).1 (verdict r).2 now) :=
      hid ▸ hrewrites.after
    dsimp only at hs
    rw [hafter] at hs
    cases hs
    exact .inr ⟨rfl, b, l, hb, hheld, hrewrites, rfl⟩

theorem announces_complete {r : Report} {held : Bool} (h : Records given p.ledger)
    (hlimit : 1 ≤ p.ledger.historyLimit) (hs : p.complete now id r = .ok (held, p')) :
    p.Announces p' (p.ledger.milestones p'.ledger) := by
  rcases complete_cases h hlimit hs with ⟨-, rfl⟩ | ⟨-, b, l, hb, hheld, hrewrites, rfl⟩
  · exact announces_self _
  · have hpassed : p.ledger.milestones l = _ := hrewrites.milestones_eq
    have hend : (b.finish (verdict r).1 (verdict r).2 now).isTerminal = true :=
      isTerminal_verdict r
    rw [Milestone.between_of_end (Build.isTerminal_eq_false_of_heldBy hheld) hend] at hpassed
    obtain ⟨hledger, hroster⟩ := tables_announceCompletion
      ({ p with ledger := l }.free r.worker id) now (b.finish (verdict r).1 (verdict r).2 now)
    have hjournal := journal_announceCompletion
      ({ p with ledger := l }.free r.worker id) now (b.finish (verdict r).1 (verdict r).2 now)
    rw [journal_free] at hjournal
    rw [hledger, ledger_free, hpassed]
    refine announces_milestone hjournal ?_ ?_
    · rfl
    · intro x
      rw [hroster, presence_free]

theorem announces_satisfy (h : Records given p.ledger) (hlimit : 1 ≤ p.ledger.historyLimit)
    (now : Instant) (id : BuildId) (artifacts : List String) :
    p.Announces (p.satisfy now id artifacts).2
      (p.ledger.milestones (p.satisfy now id artifacts).2.ledger) := by
  unfold satisfy
  split
  · exact p.announces_self
  · rename_i l hl
    obtain ⟨b, hb, hq, hrewrites⟩ := rewrites_satisfy? h hlimit hl
    have hpassed : p.ledger.milestones l = _ := hrewrites.milestones_eq
    rw [Milestone.between_of_end (Build.isTerminal_eq_false_of_queued hq) rfl] at hpassed
    obtain rfl := id_of_find? hb
    change p.Announces _ (p.ledger.milestones l)
    rw [hpassed]
    refine announces_milestone rfl ?_ fun _ => rfl
    rfl

/-! ## Workers -/

theorem announces_register {info : WorkerInfo} {worker : Worker}
    (hs : p.register now info = .ok (worker, p')) :
    p.Announces p' (p.ledger.milestones p'.ledger) := by
  obtain ⟨⟨answer, roster⟩, hr, hs⟩ := Refusal.of_bind_eq_ok hs
  obtain ⟨-, -, hanswer, -⟩ := Roster.register_eq_ok hr
  cases hs
  change p.Announces _ (p.ledger.milestones p.ledger)
  rw [milestones_self]
  refine announces_worker rfl ?_
  intro x
  refine (Roster.presence_register hr x).trans ?_
  rw [hanswer]
  rfl

theorem announces_heartbeat {usage : Usage} (hs : p.heartbeat now w usage = .ok p') :
    p.Announces p' (p.ledger.milestones p'.ledger) := by
  obtain ⟨⟨revived, roster⟩, hr, hs⟩ := Refusal.of_bind_eq_ok hs
  dsimp only at hs
  cases revived with
  | false =>
    cases hs
    exact announces_same rfl rfl (Roster.presence_heartbeat_of_online hr)
  | true =>
    -- A worker that came back is in the roster, so it is announced.
    obtain ⟨worker, hworker⟩ := Roster.find?_of_heartbeat hr
    rw [hworker] at hs
    cases hs
    change p.Announces _ (p.ledger.milestones p.ledger)
    rw [milestones_self]
    refine announces_worker rfl ?_
    intro x
    have hon : ((worker.beat usage now).status != .offline) = true :=
      worker.beat_isOnline usage now
    rw [hon]
    exact Roster.presence_heartbeat hr x

/-! ## Passes and deliveries -/

/-- A build that is handed out has not started yet. -/
theorem announces_pass (h : p.Sound given) (now : Instant) :
    p.Announces (p.pass now).2 (p.ledger.milestones (p.pass now).2.ledger) := by
  have hnone : p.ledger.milestones (p.pass now).2.ledger = [] := by
    apply milestones_eq_nil
    intro b b' hb hb'
    by_cases hplaced : ∃ x ∈ p.placements, x.1.id = b'.id
    · obtain ⟨x, hx, hid⟩ := hplaced
      obtain ⟨hwas, hq⟩ := of_mem_placements hx
      rw [← hid] at hb hb'
      cases hwas.symm.trans hb
      cases (find?_pass_of_placed h now hx).symm.trans hb'
      rw [Milestone.between_of_open rfl, if_neg]
      rintro ⟨hassigned, -⟩
      rw [hq] at hassigned
      cases hassigned
    · have hkept := find?_pass_of_not_placed h now fun x hx heq => hplaced ⟨x, hx, heq⟩
      rw [hkept] at hb'
      cases hb.symm.trans hb'
      exact Milestone.between_self b
  have hpresence : ∀ w, (p.pass now).2.roster.presence w = p.roster.presence w := by
    intro w
    rw [roster_pass h]
    exact Roster.presence_allot p.roster p.ledger.queue w
  rw [hnone]
  exact announces_nothing rfl hpresence

/-- The worker that took a build is named with the task it was handed. -/
theorem announces_delivered {a : Assignment}
    (htask : ∀ b, p.ledger.find? a.build = some b → b.task = a.task.task) (now : Instant) :
    p.Announces (p.delivered now a) (p.ledger.milestones (p.delivered now a).ledger) := by
  unfold delivered
  split
  · exact p.announces_self
  · rename_i l hl
    obtain ⟨b, hb, hawaits, hrewrites⟩ := rewrites_acknowledge? hl
    obtain ⟨hassigned, -, hheld⟩ := Build.awaits_iff.1 hawaits
    have hpassed : p.ledger.milestones l = _ := hrewrites.milestones_eq
    rw [Milestone.between_of_open rfl, if_pos ⟨hassigned, rfl⟩] at hpassed
    change p.Announces _ (p.ledger.milestones l)
    rw [hpassed]
    have hid : b.id = a.build := id_of_find? hb
    have hworker : b.start.worker = some a.worker := (Build.heldBy_iff.1 hheld).2
    have hnotice := notice?_buildStarted (b := b.start) hid hworker (htask b hb) now
    exact announces_milestone rfl hnotice fun _ => rfl

theorem announces_undelivered (p : Pool) (a : Assignment) :
    p.Announces (p.undelivered a) (p.ledger.milestones (p.undelivered a).ledger) := by
  unfold undelivered
  split
  · exact p.announces_self
  · rename_i l hl
    obtain ⟨b, hrewrites⟩ := rewrites_rollback? hl
    have hpassed : p.ledger.milestones l = _ := hrewrites.milestones_eq
    rw [Milestone.between_of_open rfl, if_neg fun hboth => by cases hboth.2] at hpassed
    rw [ledger_free, hpassed]
    apply announces_nothing
    · rw [journal_free]
    · intro x
      rw [presence_free]

/-! ## Scans -/

/-- After a scan the workers that fell silent are offline. -/
theorem presence_of_scanned {r r' : Roster} {judged : Instant} {timeout : Int}
    (h : ∀ w, r'.find? w = if w ∈ r.stale judged timeout
      then (r.find? w).map Worker.disconnect else r.find? w) (x : WorkerId) :
    r'.presence x = if x ∈ r.stale judged timeout then some false else r.presence x := by
  unfold Roster.presence
  rw [h]
  split
  · rename_i hx
    obtain ⟨worker, hworker, -⟩ := Roster.find?_of_mem_stale hx
    rw [hworker]
    rfl
  · rfl

theorem journal_foldl_publish {α : Type} (news : α → Event) (xs : List α) (p : Pool) :
    (xs.foldl (fun p x => p.publish (news x)) p).journal = p.journal ++ xs.map news := by
  induction xs generalizing p with
  | nil => exact (List.append_nil _).symm
  | cons x rest ih =>
    rw [List.foldl_cons, ih, List.map_cons]
    exact List.append_assoc p.journal [news x] (rest.map news)

theorem journal_announceScan {scan : Scan} (p : Pool) (now : Instant)
    (h : scan.offline = [] → scan.failed = []) :
    (p.announceScan now scan).journal =
      p.journal ++ (scan.offline.map (fun w => .workerChanged w .offline now) ++
        scan.failed.map fun b => .buildFinished b .failed 0 (some retriesExhausted) now) := by
  unfold announceScan
  split
  · rename_i hnone
    have hoffline := List.isEmpty_iff.1 hnone
    rw [hoffline, h hoffline]
    exact (List.append_nil _).symm
  · have hoffline := journal_foldl_publish
      (fun w => .workerChanged w .offline now) scan.offline p
    have hfailed := journal_foldl_publish
      (fun b => .buildFinished b .failed 0 (some retriesExhausted) now) scan.failed
      (scan.offline.foldl (fun p w => p.publish (.workerChanged w .offline now)) p)
    rw [hoffline, List.append_assoc] at hfailed
    dsimp only
    split
    · exact hfailed
    · exact hfailed

/-- The builds that fail when they are lost end so, and no other milestone is passed. -/
theorem notices_losing (h : l.Sound given) (hlimit : 1 ≤ l.historyLimit) (now : Instant)
    (pairs : List (BuildId × WorkerId)) :
    (l.trail (losing now pairs l)).map Milestone.notice =
      (failedIn (loseAll now pairs l).1).map fun id =>
        .finished id .failed (some 0) (some retriesExhausted) := by
  induction pairs generalizing l with
  | nil => rfl
  | cons pair rest ih =>
    obtain ⟨id, w⟩ := pair
    have hlimits := (limits_lose l id w now).2
    have hrest := ih (sound_lose h id w now).1 (by omega)
    have hfirst : (l.milestones (l.lose id w now).2).map Milestone.notice =
        (failedIn [(id, (l.lose id w now).1)]).map fun id =>
          .finished id .failed (some 0) (some retriesExhausted) := by
      rcases rewrites_lose h.records hlimit id w now with
        heq | ⟨b, hb, hopen, hrewrites, ⟨hfailed, hend⟩ | ⟨hback, hqueued⟩⟩
      · rw [heq, milestones_self]
        rfl
      · rw [hrewrites.milestones_eq, Milestone.between_of_end hopen hend, hfailed]
        have hspent : ¬ b.retries < l.maxRetries := by
          intro hleft
          unfold Build.lost at hend
          rw [if_pos hleft] at hend
          cases hend
        unfold Build.lost
        rw [if_neg hspent]
        obtain rfl := id_of_find? hb
        rfl
      · have hstill := Build.isTerminal_eq_false_of_queued hqueued
        rw [hrewrites.milestones_eq, Milestone.between_of_open hstill, hback, if_neg]
        · rfl
        · rintro ⟨-, hrunning⟩
          rw [hqueued] at hrunning
          cases hrunning
    rw [losing, trail, List.map_append, hfirst, hrest, loseAll_cons, ← List.map_append,
      ← failedIn_append]
    rfl

theorem announces_scan (h : p.Sound given) (hlimit : 1 ≤ p.ledger.historyLimit)
    (now judged : Instant) :
    p.Announces (p.scan now judged).2
      (p.ledger.trail (losing now (p.overdue judged) p.ledger)) := by
  obtain ⟨roster, heq, hscan, hroster⟩ := p.scan_eq now judged
  have htables := tables_announceScan
    { p with ledger := (loseAll now (p.overdue judged) p.ledger).2, roster } now
    (p.scan now judged).1
  -- Nobody fell silent, so nothing was lost.
  have hnobody : (p.scan now judged).1.offline = [] → (p.scan now judged).1.failed = [] := by
    rw [hscan]
    intro hoffline
    change p.roster.stale judged p.heartbeatTimeout = [] at hoffline
    change failedIn (loseAll now (p.overdue judged) p.ledger).1 = []
    unfold overdue
    rw [hoffline]
    rfl
  have hjournal := journal_announceScan
    { p with ledger := (loseAll now (p.overdue judged) p.ledger).2, roster } now hnobody
  rw [heq]
  refine ⟨_, hjournal, ?_, ?_⟩
  · rw [hscan, notices_losing h.ledger hlimit, List.filterMap_append, List.filterMap_map,
      List.filterMap_map]
    simp [Function.comp_def, Event.notice?]
  · intro w
    have hbuilds : lastTold ((p.scan now judged).1.failed.map fun b =>
        .buildFinished b .failed 0 (some retriesExhausted) now) w = none := by
      apply lastTold_eq_none
      intro e he
      obtain ⟨b, -, rfl⟩ := List.mem_map.1 he
      rfl
    rw [htables.2, presence_of_scanned hroster, lastTold_append, hbuilds, Option.none_or,
      lastTold_offline, hscan]
    dsimp only
    split <;> rfl

end Pool

end BuildPool
