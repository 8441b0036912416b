import BuildPool.Proofs.Pool.Attempts
import BuildPool.Proofs.Pool.Notices

/-!
# The journal

From the start of a pool on the monitor hears of every milestone as builds pass it, and of nothing
else that builds do. It knows of each worker that came or went whether it is there.
-/

namespace BuildPool

open BuildPool.Time Ledger

namespace Course

variable {c d : Course} {op : Op} {ops : List Op} {id : BuildId} {w : WorkerId} {a : Assignment}
  {b b' : Build}

/-! ## Outstanding assignments -/

/-- An assignment that was not answered yet shows the task that its build was submitted with. -/
def Briefed (c : Course) : Prop :=
  ∀ a ∈ c.outstanding, a.build ∈ c.given ∧
    ∀ b, c.pool.ledger.find? a.build = some b → b.task = a.task.task

theorem briefed_handedBy (h : c.Sound) (ha : a ∈ c.handedBy op) :
    a.build ∈ c.given ∧
      ∀ b, (c.after op).pool.ledger.find? a.build = some b → b.task = a.task.task := by
  cases op with
  | pass now =>
    change a ∈ (c.pool.pass now).1.assignments at ha
    rw [(Pool.pass_eq h.pool now).1] at ha
    obtain ⟨x, hx, rfl⟩ := List.mem_map.1 ha
    have hwas := (Pool.of_mem_placements hx).1
    refine ⟨(h.pool.ledger.records.numbered _ _ hwas).mem, ?_⟩
    intro b hb
    cases (Pool.find?_pass_of_placed h.pool now hx).symm.trans hb
    rfl
  | _ => cases ha

theorem briefed_after (h : c.Sound) (hadmits : c.Admits op) (hbriefed : c.Briefed) :
    (c.after op).Briefed := by
  intro a ha
  rcases List.mem_append.1 ((outstanding_after c op).mem ha) with hold | hnew
  · obtain ⟨hid, htask⟩ := hbriefed a hold
    refine ⟨(given_after c op).subset hid, ?_⟩
    intro b' hb'
    obtain ⟨b, hb, hsame, -⟩ := evolves_after h hadmits a.build hid b' hb'
    have hsubmitted : b'.task = b.task := congrArg (fun s => s.2.2.1) hsame
    rw [hsubmitted, htask b hb]
  · obtain ⟨hid, htask⟩ := briefed_handedBy h hnew
    exact ⟨(given_after c op).subset hid, htask⟩

theorem Reachable.briefed (h : c.Reachable) : c.Briefed := by
  refine (h.induct (P := fun c => c.Sound ∧ c.Briefed) (fun config caching => ?_)
    fun c op hc hadmits => ?_).2
  · exact ⟨sound_start config caching, fun _ ha => by cases ha⟩
  · exact ⟨sound_after hc.1 hadmits, briefed_after hc.1 hadmits hc.2⟩

/-! ## Every operation -/

theorem announces_enter {α : Type} {result : Except Refusal (α × Pool)}
    (hp : ∀ a p, result = .ok (a, p) →
      c.pool.Announces p (c.pool.ledger.milestones p.ledger)) :
    c.pool.Announces (c.enter result).pool
      (c.pool.ledger.milestones (c.enter result).pool.ledger) :=
  of_enter (P := fun p => c.pool.Announces p (c.pool.ledger.milestones p.ledger))
    c.pool.announces_self hp

theorem announces_milestones (h : c.Sound) (hlimit : 1 ≤ c.pool.ledger.historyLimit)
    (hbriefed : c.Briefed) (hadmits : c.Admits op) (hop : op.cause ≠ some .loss) :
    c.pool.Announces (c.after op).pool
      (c.pool.ledger.milestones (c.after op).pool.ledger) := by
  have hrecords := h.pool.ledger.records
  cases op with
  | submit now r id =>
    simp only [after]
    split
    · rename_i b p hp
      exact Pool.announces_submitAs hrecords hadmits hp
    · exact c.pool.announces_self
  | cancel now id => exact announces_enter fun _ _ hp => Pool.announces_cancel hrecords hlimit hp
  | progress now id w amount => exact announces_enter fun _ _ hp => Pool.announces_progress hp
  | complete now id r =>
    exact announces_enter fun _ _ hp => Pool.announces_complete hrecords hlimit hp
  | satisfy now id artifacts => exact Pool.announces_satisfy hrecords hlimit now id artifacts
  | register now info => exact announces_enter fun _ _ hp => Pool.announces_register hp
  | heartbeat now w usage =>
    exact announces_enter fun _ _ hp => Pool.announces_heartbeat (eq_ok_of_map hp)
  | pass now => exact Pool.announces_pass h.pool now
  | delivered now place =>
    simp only [after]
    split
    · rename_i a ha
      exact Pool.announces_delivered (hbriefed a (List.mem_of_getElem? ha)).2 now
    · exact c.pool.announces_self
  | undelivered place =>
    simp only [after]
    split
    · exact Pool.announces_undelivered c.pool _
    · exact c.pool.announces_self
  | wake | takeWakeUp | takeSaveRequest => exact Pool.announces_same rfl rfl fun _ => rfl
  | scan | restart => exact absurd rfl hop

theorem announces_after (h : c.Sound) (hlimited : c.Limited) (hbriefed : c.Briefed)
    (hadmits : c.Admits op) (hop : ∀ now config caching, op ≠ .restart now config caching) :
    c.pool.Announces (c.after op).pool (c.milestonesOf op) := by
  have hlimit := hlimited.one_le_historyLimit
  by_cases hloss : op.cause = some .loss
  · cases op with
    | scan now judged =>
      rw [milestonesOf_scan]
      exact Pool.announces_scan h.pool hlimit now judged
    | restart now config caching => exact absurd rfl (hop now config caching)
    | _ => cases hloss
  · rw [milestonesOf_eq hloss]
    exact announces_milestones h hlimit hbriefed hadmits hloss

/-! ## Every run -/

theorem Reachable.run (h : c.Reachable) (hrun : Run c ops d) : d.Reachable := by
  obtain ⟨config, caching, before, hbefore⟩ := h
  exact ⟨config, caching, before ++ ops, hbefore.trans hrun⟩

theorem Run.announces (h : c.Reachable) (hrun : Run c ops d)
    (hops : ∀ op ∈ ops, ∀ now config caching, op ≠ .restart now config caching) :
    c.pool.Announces d.pool (c.along milestonesOf ops) := by
  induction hrun with
  | nil => exact Pool.announces_nothing rfl fun _ => rfl
  | snoc hrun hadmits ih =>
    rw [hrun.along_snoc]
    have hreachable := h.run hrun
    have hbefore := ih fun op hop => hops op (List.mem_append_left _ hop)
    exact hbefore.trans (announces_after hreachable.sound hreachable.limited hreachable.briefed
      hadmits (hops _ (List.mem_append_right _ List.mem_cons_self)))

/-- A pool that just started, for the first time or again. -/
inductive Starts : Course → Prop
  | first (config : Config) (caching : Bool) : Starts (start config caching)
  | again {b : Course} (h : b.Reachable) (now : Instant) (config : Config) (caching : Bool) :
    Starts (b.after (.restart now config caching))

theorem Starts.reachable (h : c.Starts) : c.Reachable := by
  cases h with
  | first config caching => exact ⟨config, caching, [], .nil⟩
  | again h now config caching => exact h.after _ trivial

theorem Starts.journal_eq_nil (h : c.Starts) : c.pool.journal = [] := by
  cases h <;> rfl

/-- The build ended, whether its record is still kept or not. -/
def Ended (c : Course) (id : BuildId) : Prop := id ∈ c.given ∧ ¬ c.pool.ledger.IsOpen id

/-- The journal against what happened since the start. -/
structure Faithful (c : Course) (ops : List Op) (d : Course) : Prop where
  /-- One notice for each milestone, with what the record said then, and no other notices. -/
  told : d.pool.journal.filterMap Event.notice? =
    (c.along milestonesOf ops).map Milestone.notice
  ended : ∀ id, (∃ n ∈ d.pool.journal.filterMap Event.notice?, n.isEnd = true ∧ n.build = id) ↔
    d.Ended id ∧ ¬ c.Ended id
  /-- After the notice of its end there is none of a build, neither of its end nor of a start. -/
  final : (d.pool.journal.filterMap Event.notice?).Pairwise fun n n' =>
    n.isEnd = true → n'.build ≠ n.build
  /-- No attempt at a build starts twice. -/
  started : ((c.along milestonesOf ops).filterMap Milestone.attempt?).Nodup
  /-- The answer to a report says whether it ended the build. -/
  answered : ∀ now id r, (∃ p, d.pool.complete now id r = .ok (true, p)) ↔
    ¬ d.Ended id ∧ (d.after (.complete now id r)).Ended id
  /-- What was last said of a worker is so now. -/
  workers : ∀ w status, lastTold d.pool.journal w = some status →
    ∃ worker, d.pool.roster.find? w = some worker ∧
      (status = .offline ↔ worker.isOnline = false)

theorem answered_iff (h : c.Sound) (hlimit : 1 ≤ c.pool.ledger.historyLimit) (now : Instant)
    (id : BuildId) (r : Report) : (∃ p, c.pool.complete now id r = .ok (true, p)) ↔
      ¬ c.Ended id ∧ (c.after (.complete now id r)).Ended id := by
  constructor
  · rintro ⟨p, hp⟩
    have hafter : c.after (.complete now id r) = { c with pool := p } := by
      change c.enter (c.pool.complete now id r) = _
      rw [hp]
      rfl
    rcases Pool.complete_cases h.pool.ledger.records hlimit hp with
      ⟨hfalse, -⟩ | ⟨-, b, l, hb, hheld, hrewrites, hpool⟩
    · cases hfalse
    · have hledger : p.ledger = l := by
        rw [hpool, (Pool.tables_announceCompletion _ _ _).1, Pool.ledger_free]
      have hopen := Build.isTerminal_eq_false_of_heldBy hheld
      have hend : (b.finish (verdict r).1 (verdict r).2 now).isTerminal = true :=
        isTerminal_verdict r
      have hkept : p.ledger.find? id = some (b.finish (verdict r).1 (verdict r).2 now) := by
        rw [hledger, ← id_of_find? hb]
        exact hrewrites.after
      refine ⟨fun hended => hended.2 ⟨b, hb, hopen⟩, ?_⟩
      rw [hafter]
      exact ⟨(h.pool.ledger.records.numbered id b hb).mem, not_isOpen_of_isTerminal hkept hend⟩
  · rintro ⟨hnot, hended⟩
    change (c.enter (c.pool.complete now id r)).Ended id at hended
    cases hp : c.pool.complete now id r with
    | error e =>
      rw [hp] at hended
      exact absurd hended hnot
    | ok answer =>
      obtain ⟨held, p⟩ := answer
      rw [hp] at hended
      rcases Pool.complete_cases h.pool.ledger.records hlimit hp with ⟨-, rfl⟩ | ⟨rfl, -⟩
      · exact absurd hended hnot
      · exact ⟨p, rfl⟩

/-- From its start on, whatever happens to a pool short of another restart, its journal is
faithful. -/
theorem journal_faithful (hstart : c.Starts) (hrun : Run c ops d)
    (hops : ∀ op ∈ ops, ∀ now config caching, op ≠ .restart now config caching) :
    Faithful c ops d := by
  have hreachable := hstart.reachable
  have hchronicle := hrun.chronicle hreachable.sound hreachable.limited hops
  obtain ⟨news, hjournal, htold, hpresence⟩ := hrun.announces hreachable hops
  rw [hstart.journal_eq_nil, List.nil_append] at hjournal
  rw [← hjournal] at htold hpresence
  have hd := hreachable.run hrun
  constructor
  case told => exact htold
  case ended =>
    intro id
    refine Iff.trans ?_ (hchronicle.ends id)
    rw [htold]
    constructor
    · rintro ⟨n, hn, hend, rfl⟩
      obtain ⟨m, hm, rfl⟩ := List.mem_map.1 hn
      cases m with
      | started b => cases hend
      | finished b => exact ⟨b, hm, rfl⟩
    · rintro ⟨b, hb, rfl⟩
      exact ⟨_, List.mem_map_of_mem hb, rfl, rfl⟩
  case final =>
    rw [htold]
    apply List.pairwise_map.2
    apply hchronicle.final.imp
    intro m m' hlast hend
    rw [Milestone.notice_isEnd] at hend
    rw [Milestone.notice_build, Milestone.notice_build]
    exact hlast hend
  case started => exact hchronicle.attempts
  case answered =>
    have hlimit := hd.limited.one_le_historyLimit
    exact answered_iff hd.sound hlimit
  case workers =>
    intro w status hstatus
    have hnow := hpresence w
    rw [hstatus] at hnow
    obtain ⟨worker, hworker, hon⟩ := Option.map_eq_some_iff.1 hnow
    refine ⟨worker, hworker, ?_⟩
    rw [hon]
    simp

/-- Nothing is kept but the build that ended last. A worker reports the end of one build, another
build is cancelled, and the worker falls silent. -/
def heardOfTwo : List Op :=
  [.submit ⟨0, 0⟩ { project := "p", task := "t" } ⟨"a"⟩,
    .register ⟨1, 0⟩ { id := ⟨"w"⟩, address := "x", capacity := 1 },
    .pass ⟨2, 0⟩,
    .delivered ⟨3, 0⟩ 0,
    .submit ⟨4, 0⟩ { project := "p", task := "u" } ⟨"b"⟩,
    .cancel ⟨5, 0⟩ ⟨"b"⟩,
    .complete ⟨6, 0⟩ ⟨"a"⟩ { worker := ⟨"w"⟩, success := true, duration := 7 },
    .scan ⟨900, 0⟩ ⟨900, 0⟩]

theorem journal_faithful_heardOfTwo :
    (heardOfTwo.foldl Course.after (start { historyLimit := 0 } false)).pool.journal =
      [.workerChanged ⟨"w"⟩ .available ⟨1, 0⟩,
        .buildStarted ⟨"a"⟩ ⟨"w"⟩ "t" ⟨3, 0⟩,
        .buildFinished ⟨"b"⟩ .cancelled 0 (some cancelledReason) ⟨5, 0⟩,
        .buildFinished ⟨"a"⟩ .completed 7 none ⟨6, 0⟩,
        .workerChanged ⟨"w"⟩ .offline ⟨900, 0⟩] ∧
      Faithful (start { historyLimit := 0 } false) heardOfTwo
        (heardOfTwo.foldl Course.after (start { historyLimit := 0 } false)) := by
  have hnew : (⟨"b"⟩ : BuildId) ∉ [⟨"a"⟩] := by decide
  refine ⟨rfl, journal_faithful (.first _ _) (run_foldl ?_) ?_⟩
  · exact ⟨List.not_mem_nil, trivial, trivial, trivial, hnew, trivial, trivial, trivial, trivial⟩
  · intro op hop now config caching heq
    subst heq
    simp [heardOfTwo] at hop

end Course

end BuildPool
