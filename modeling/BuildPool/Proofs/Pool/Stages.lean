import BuildPool.Proofs.Ledger.View
import BuildPool.Proofs.Pool.Keeps
import BuildPool.Proofs.Pool.Lifecycle

/-!
# Builds taken from their workers

A scan takes the builds of the workers that fell silent, and a restart those of all workers. Either
way the builds are lost one after the other, and the ledger passes through a stage for each.
-/

namespace BuildPool

open BuildPool.Time Ledger

namespace Build.Change

variable {maxRetries : Nat} {k : Cause} {b b' : Build}

/-- Only the loss of a worker counts as a retry. -/
theorem retries_eq (h : Change maxRetries k b b') (hk : k ≠ .loss) : b'.retries = b.retries := by
  cases h with
  | requeued | exhausted => exact absurd rfl hk
  | advanced amount _ =>
    unfold advance
    split <;> rfl
  | _ => rfl

end Build.Change

namespace Pool

variable {given : List BuildId} {p : Pool} {id : BuildId} {w : WorkerId} {judged : Instant}

theorem scan_ledger (p : Pool) (now judged : Instant) :
    (p.scan now judged).2.ledger = (loseAll now (p.overdue judged) p.ledger).2 := by
  obtain ⟨roster, heq, -⟩ := p.scan_eq now judged
  rw [heq, (tables_announceScan _ _ _).1]

theorem mem_overdue : (id, w) ∈ p.overdue judged ↔
    w ∈ p.roster.stale judged p.heartbeatTimeout ∧ p.roster.Holds w id :=
  Roster.mem_holdings

theorem holding_overdue (h : p.Sound given) (judged : Instant) :
    p.ledger.Holding (p.overdue judged) where
  once := Roster.nodup_holdings (p.roster.nodup_stale _ _) fun v w id hv hw =>
    heldBy_unique ((h.slots v id).1 hv) ((h.slots w id).1 hw)
  held x hx := (h.slots x.2 x.1).1 (mem_overdue.1 hx).2

end Pool

namespace Course

variable {c d : Course} {op : Op} {ops : List Op} {id : BuildId} {w : WorkerId} {b b' : Build}
  {l : Ledger} {now : Instant}

theorem Run.limited (h : c.Sound) (hlimited : c.Limited) (hrun : Run c ops d) : d.Limited := by
  induction hrun with
  | nil => exact hlimited
  | snoc hrun hadmits ih => exact limited_after (hrun.sound h) hadmits ih

/-- The builds that an operation takes from workers, each with its worker. -/
def taken (c : Course) : Op → List (BuildId × WorkerId)
  | .scan _ judged => c.pool.overdue judged
  | .restart .. => c.pool.ledger.inFlight
  | _ => []

/-- The ledger after each of the losses that an operation brings. -/
def during (c : Course) : Op → List Ledger
  | .scan now judged => losing now (c.pool.overdue judged) c.pool.ledger
  | .restart now config _ =>
    losing now c.pool.ledger.inFlight
      (reopen c.pool.ledger.toImage config.maxRetries config.retainedHistory)
  | _ => []

/-- The ledgers that an operation goes through, up to the one that it leaves. -/
def stages (c : Course) (op : Op) : List Ledger := c.during op ++ [(c.after op).pool.ledger]

/-! ## Which builds are taken -/

theorem mem_taken_scan (h : c.Sound) (now judged : Instant) :
    (id, w) ∈ c.taken (.scan now judged) ↔
      c.pool.ledger.HeldBy id w ∧ w ∈ c.pool.roster.stale judged c.pool.heartbeatTimeout := by
  change (id, w) ∈ c.pool.overdue judged ↔ _
  rw [Pool.mem_overdue, h.pool.slots w id, and_comm]

theorem mem_taken_restart {config : Config} {caching : Bool} :
    (id, w) ∈ c.taken (.restart now config caching) ↔ c.pool.ledger.HeldBy id w :=
  mem_inFlight

theorem holding_taken (h : c.Sound) (op : Op) : c.pool.ledger.Holding (c.taken op) := by
  cases op with
  | scan now judged => exact Pool.holding_overdue h.pool judged
  | restart now config caching => exact c.pool.ledger.holding_inFlight
  | _ => exact ⟨List.nodup_nil, fun _ hx => by cases hx⟩

/-! ## What becomes of them -/

/-- The operation takes builds from workers one after the other, from a ledger with the builds of
before and the limits of after. -/
structure Taking (c : Course) (op : Op) (now : Instant) (l : Ledger) : Prop where
  builds : ∀ id, l.find? id = c.pool.ledger.find? id
  retried : l.counters.retried = c.pool.ledger.counters.retried
  sound : l.Sound c.given
  kept : 1 ≤ l.historyLimit
  limit : (c.after op).pool.ledger.maxRetries = l.maxRetries
  during : c.during op = losing now (c.taken op) l
  ends : (c.after op).pool.ledger = (loseAll now (c.taken op) l).2.evict

theorem ledger_scan (c : Course) (now judged : Instant) :
    (c.after (.scan now judged)).pool.ledger =
      (loseAll now (c.pool.overdue judged) c.pool.ledger).2 :=
  c.pool.scan_ledger now judged

theorem taking_scan (h : c.Sound) (hlimited : c.Limited) (now judged : Instant) :
    c.Taking (.scan now judged) now c.pool.ledger where
  builds _ := rfl
  retried := rfl
  sound := h.pool.ledger
  kept := hlimited.one_le_historyLimit
  limit := by rw [c.ledger_scan now judged, (limits_loseAll now _ _).1]
  during := rfl
  ends := by
    have hfits := hlimited.loseAll now (c.pool.overdue judged)
    rw [c.ledger_scan now judged]
    apply (evict_eq_self _).symm
    rw [hfits.limit]
    exact hfits.fits

theorem taking_restart (h : c.Sound) (now : Instant) (config : Config) (caching : Bool) :
    c.Taking (.restart now config caching) now
      (reopen c.pool.ledger.toImage config.maxRetries config.retainedHistory) := by
  have hlimits := limits_reopen c.pool.ledger.toImage config.maxRetries config.retainedHistory
  have hflight := inFlight_reopen c.pool.ledger config.maxRetries config.retainedHistory
  constructor
  case builds => exact find?_reopen c.pool.ledger _ _
  case retried => rfl
  case sound => exact sound_reopen h.pool.ledger _ _
  case kept =>
    rw [hlimits.2]
    exact config.one_le_retainedHistory
  case limit =>
    rw [hlimits.1]
    exact (within_ofImage c.pool.ledger.toImage config.maxRetries config.retainedHistory
      now).retries
  case during => rfl
  case ends =>
    change (loseAll now (reopen c.pool.ledger.toImage config.maxRetries
      config.retainedHistory).inFlight _).2.evict = _
    rw [hflight]
    rfl

theorem taking_of_cause (h : c.Sound) (hlimited : c.Limited) (hop : op.cause = some .loss) :
    ∃ now l, c.Taking op now l := by
  cases op with
  | scan now judged => exact ⟨now, _, taking_scan h hlimited now judged⟩
  | restart now config caching => exact ⟨now, _, taking_restart h now config caching⟩
  | _ => cases hop

namespace Taking

theorem holding (h : c.Sound) (ht : c.Taking op now l) : l.Holding (c.taken op) := by
  have hbefore := holding_taken h op
  constructor
  · exact hbefore.once
  · intro x hx
    unfold HeldBy
    rw [ht.builds]
    exact hbefore.held x hx

theorem changes (ht : c.Taking op now l) :
    Changes c.given (Build.Change (c.after op).pool.ledger.maxRetries .loss) c.pool.ledger
      (c.after op).pool.ledger := by
  have hsound := (sound_loseAll now (c.taken op) ht.sound).1
  have hlost := changes_loseAll ht.sound now (c.taken op)
  have hall := Changes.trans_loss ht.sound.records hlost (.evict hsound.records)
  rw [ht.limit, ht.ends]
  constructor
  · intro id hid b' hb'
    obtain ⟨b, hb, hchange⟩ := hall.former id hid b' hb'
    exact ⟨b, (ht.builds id).symm.trans hb, hchange⟩
  · intro id b hb hnone
    exact hall.dropped id b ((ht.builds id).trans hb) hnone

/-- Exactly the builds that are taken leave their workers. -/
theorem heldBy (ht : c.Taking op now l) :
    (c.after op).pool.ledger.HeldBy id w ↔
      c.pool.ledger.HeldBy id w ∧ (id, w) ∉ c.taken op := by
  obtain ⟨hsound, hheld⟩ := sound_loseAll now (c.taken op) ht.sound
  rw [ht.ends, heldBy_evict hsound.records, hheld]
  unfold HeldBy
  rw [ht.builds]

/-- A taken build is as its loss left it, unless it failed and was dropped. -/
theorem remembers (h : c.Sound) (ht : c.Taking op now l) (hmem : (id, w) ∈ c.taken op)
    (hb : c.pool.ledger.find? id = some b) :
    (c.after op).pool.ledger.Remembers (b.lost (c.after op).pool.ledger.maxRetries now) := by
  have hsound := (sound_loseAll now (c.taken op) ht.sound).1
  have hlost := lost_remembered now ht.sound.records.listsEnds ht.kept (ht.holding h) hmem
    ((ht.builds id).trans hb)
  rw [ht.limit, ht.ends]
  exact remembers_evict hsound.records.listsEnds hlost

theorem exists_stage (h : c.Sound) (ht : c.Taking op now l) (hmem : (id, w) ∈ c.taken op)
    (hb : c.pool.ledger.find? id = some b) :
    ∃ stage ∈ c.stages op,
      stage.find? id = some (b.lost (c.after op).pool.ledger.maxRetries now) := by
  obtain ⟨stage, hstage, hlost⟩ := exists_losing now ht.sound.records.listsEnds ht.kept
    (ht.holding h) hmem ((ht.builds id).trans hb)
  rw [← ht.during] at hstage
  rw [← ht.limit] at hlost
  exact ⟨stage, List.mem_append_left _ hstage, hlost⟩

end Taking

end Course

end BuildPool
