import Mathlib.Tactic
import BuildPool.Proofs.Ledger.Recent
import BuildPool.Proofs.Pool.Milestones

/-!
# The history of a pool

The builds that ended in the course of a pool, one after the other, and what its history keeps of
them. Restarts count too, as long as they bring the same limit.
-/

namespace BuildPool

open BuildPool.Time Ledger

/-! ## One operation of the ledger -/

theorem Op.Writes.enters {op : Op} {given : List BuildId} {l l' : Ledger} (hl : l.Sound given)
    (hlimit : 1 ≤ l.historyLimit) (hfits : l.history.length ≤ l.historyLimit)
    (h : op.Writes given l l') (hop : op.cause ≠ some .loss) : Enters (l.endsTo l') l l' := by
  cases h with
  | nothing =>
    rw [endsTo, milestones_self]
    exact .none hfits rfl rfl rfl
  | @submit now r id b _ fresh absent hs =>
    obtain ⟨-, hb, rfl⟩ := submit_eq_ok absent hs
    have hnobody : l.endsTo (l.put b) = [] := by
      apply endsTo_eq_nil
      rintro x b' ⟨y, hy, hopen⟩ hb'
      rw [find?_put] at hb'
      split at hb'
      · cases hb'
        rw [hb]
        rfl
      · rw [hy] at hb'
        cases hb'
        exact hopen
    change Enters (l.endsTo (l.put b)) l _
    rw [hnobody]
    exact .none hfits rfl rfl rfl
  | cancel hs =>
    obtain ⟨b, hb, ⟨-, -, rfl⟩ | ⟨hopen, -, rfl⟩⟩ := cancel_eq_ok hs
    · rw [endsTo, milestones_self]
      exact .none hfits rfl rfl rfl
    · obtain rfl := id_of_find? hb
      exact enters_archive (b := b) hl.records.listsEnds hlimit hb hopen rfl
  | @progress _ _ _ amount _ hs =>
    obtain ⟨b, hb, hheld, hrewrites⟩ := rewrites_progress hs
    obtain ⟨x, -, -, rfl⟩ := progress_eq_ok hs
    have hstays := b.advance_holdsWorker (Build.heldBy_iff.1 hheld).1 amount
    rw [hrewrites.endsTo_eq_nil (Build.isTerminal_eq_false_of_holdsWorker hstays)]
    exact .none hfits rfl rfl rfl
  | complete hs =>
    obtain ⟨b, hb, hheld, rfl⟩ := complete_eq_ok hs
    obtain rfl := id_of_find? hb
    exact enters_archive (b := b) hl.records.listsEnds hlimit hb
      (Build.isTerminal_eq_false_of_heldBy hheld) (isTerminal_verdict _)
  | @satisfy now _ artifacts _ hs =>
    obtain ⟨b, hb, hq, rfl⟩ := satisfy?_eq_some hs
    obtain rfl := id_of_find? hb
    have hrecords := hl.records.withQueue l.backlog
      { l.counters with cacheHits := l.counters.cacheHits + 1 }
    have harchive := enters_archive (b := b)
      (c := b.finish .completed { success := true, artifacts } now) hrecords.listsEnds hlimit hb
      (Build.isTerminal_eq_false_of_queued hq) rfl
    exact ⟨harchive.limit, harchive.history, harchive.counted⟩
  | @pass now placed backlog waits once =>
    have hnobody : l.endsTo (give now placed l) = [] := by
      apply endsTo_eq_nil
      rintro x b' ⟨y, hy, hopen⟩ hb'
      rcases find?_give now waits once x with ⟨z, -, -, -, -, hgiven⟩ | hsame
      · rw [hgiven] at hb'
        cases hb'
        rfl
      · rw [hsame, hy] at hb'
        cases hb'
        exact hopen
    change Enters (l.endsTo (give now placed l)) l _
    rw [hnobody, give_eq]
    exact .none hfits rfl rfl rfl
  | delivered hs =>
    obtain ⟨b, -, -, hrewrites⟩ := rewrites_acknowledge? hs
    obtain ⟨x, -, -, rfl⟩ := acknowledge?_eq_some hs
    rw [hrewrites.endsTo_eq_nil rfl]
    exact .none hfits rfl rfl rfl
  | undelivered hs =>
    obtain ⟨b, hrewrites⟩ := rewrites_rollback? hs
    obtain ⟨x, -, -, rfl⟩ := rollback?_eq_some hs
    rw [hrewrites.endsTo_eq_nil rfl]
    exact .none hfits rfl rfl rfl
  | scan | restart => exact absurd rfl hop

/-- Builds that are open are still there in the next ledger. -/
def Ledger.KeepsOpen (l l' : Ledger) : Prop := ∀ id, l.IsOpen id → ∃ b', l'.find? id = some b'

namespace Ledger

variable {given : List BuildId} {l l' : Ledger}

theorem keepsOpen_evict (h : Records given l) : KeepsOpen l l.evict := by
  rintro id ⟨b, hb, hopen⟩
  refine ⟨b, ?_⟩
  rw [find?_evict, if_neg (h.not_mem_surplus hb hopen), hb]

theorem isChain_losing (h : Sound given l) (hlimit : 1 ≤ l.historyLimit) (now : Instant)
    (pairs : List (BuildId × WorkerId)) (hlast : KeepsOpen (loseAll now pairs l).2 l') :
    List.IsChain KeepsOpen (l :: (losing now pairs l ++ [l'])) := by
  induction pairs generalizing l with
  | nil => exact List.isChain_pair.2 hlast
  | cons pair rest ih =>
    obtain ⟨id, w⟩ := pair
    have hlimit' : 1 ≤ (l.lose id w now).2.historyLimit := by
      rw [(limits_lose l id w now).2]
      exact hlimit
    have hrest := ih (sound_lose h id w now).1 hlimit' hlast
    have hfirst : KeepsOpen l (l.lose id w now).2 := (follows_lose h hlimit id w now).stays
    exact List.isChain_cons_cons.2 ⟨hfirst, hrest⟩

end Ledger

/-- A restart in the course of an operation keeps as much of the history as before. -/
def Op.Retains (limit : Nat) : Op → Prop
  | .restart _ config _ => config.retainedHistory = limit
  | _ => True

namespace Course

variable {c d : Course} {op : Op} {ops : List Op} {now : Instant} {l : Ledger}
  {ms : List Milestone} {Before : BuildId → Prop}

/-- The builds that end in the course of an operation. -/
def endsOf (c : Course) (op : Op) : List BuildId := c.pool.ledger.endsAlong (c.stages op)

theorem along_endsOf (c : Course) (ops : List Op) :
    c.along endsOf ops = (c.along milestonesOf ops).filterMap Milestone.ended? := by
  induction ops generalizing c with
  | nil => rfl
  | cons op rest ih =>
    rw [along, along, List.filterMap_append, ih]
    rfl

theorem Limited.history_le (h : c.Limited) :
    c.pool.ledger.history.length ≤ c.pool.ledger.historyLimit := by
  rw [h.limit]
  exact h.fits

/-! ## Losses -/

/-- The losses of an operation start from a ledger with the history of before. -/
structure Continues (c : Course) (op : Op) (now : Instant) (l : Ledger) : Prop
    extends c.Taking op now l where
  history : l.history = c.pool.ledger.history
  historyLimit : l.historyLimit = c.pool.ledger.historyLimit
  counters : l.counters = c.pool.ledger.counters

theorem continues_of_cause (h : c.Sound) (hlimited : c.Limited) (hop : op.cause = some .loss)
    (hretains : op.Retains c.pool.ledger.historyLimit) : ∃ now l, c.Continues op now l := by
  cases op with
  | scan now judged => exact ⟨now, _, taking_scan h hlimited now judged, rfl, rfl, rfl⟩
  | restart now config caching =>
    have hlimit := (limits_reopen c.pool.ledger.toImage config.maxRetries
      config.retainedHistory).2.trans hretains
    have hhistory := history_reopen h.pool.ledger.records config.maxRetries config.retainedHistory
    exact ⟨now, _, taking_restart h now config caching, hhistory, hlimit, rfl⟩
  | _ => cases hop

namespace Continues

theorem fits (hlimited : c.Limited) (ht : c.Continues op now l) :
    l.history.length ≤ l.historyLimit := by
  rw [ht.history, ht.historyLimit]
  exact hlimited.history_le

theorem enters_losing (hlimited : c.Limited) (ht : c.Continues op now l) :
    Enters (l.endsAlong (losing now (c.taken op) l)) l (loseAll now (c.taken op) l).2 :=
  Ledger.enters_losing ht.sound.records.listsEnds ht.kept (ht.fits hlimited) now (c.taken op)

/-- Nothing is left to drop after the losses. -/
theorem ledger_after (hlimited : c.Limited) (ht : c.Continues op now l) :
    (c.after op).pool.ledger = (loseAll now (c.taken op) l).2 := by
  rw [ht.ends]
  exact evict_eq_self (ht.enters_losing hlimited).fits

theorem milestonesOf_eq (hlimited : c.Limited) (ht : c.Continues op now l) :
    c.milestonesOf op = l.trail (losing now (c.taken op) l) := by
  have hsame : ∀ id, c.pool.ledger.find? id = l.find? id := fun id => (ht.builds id).symm
  unfold milestonesOf stages
  rw [ht.during, trail_congr hsame, trail_losing, ht.ledger_after hlimited, milestones_self,
    List.append_nil]

theorem enters (hlimited : c.Limited) (ht : c.Continues op now l) :
    Enters (c.endsOf op) c.pool.ledger (c.after op).pool.ledger := by
  have hlost := ht.enters_losing hlimited
  have hends : c.endsOf op = l.endsAlong (losing now (c.taken op) l) :=
    congrArg (List.filterMap Milestone.ended?) (ht.milestonesOf_eq hlimited)
  rw [hends, ht.ledger_after hlimited]
  constructor
  · rw [hlost.limit, ht.historyLimit]
  · rw [hlost.history, ht.history, ht.historyLimit]
  · rw [hlost.counted, ht.counters]

theorem chronicle (hlimited : c.Limited) (ht : c.Continues op now l)
    (hc : Chronicle Before ms c.given c.pool.ledger) :
    Chronicle Before (ms ++ c.milestonesOf op) c.given (c.after op).pool.ledger := by
  have hstart : Chronicle Before ms c.given l := hc.congr fun id => (ht.builds id).symm
  rw [ht.milestonesOf_eq hlimited, ht.ledger_after hlimited]
  exact chronicle_losing ht.sound ht.kept hstart now (c.taken op)

end Continues

/-! ## Every operation -/

theorem enters_after (h : c.Sound) (hlimited : c.Limited) (hadmits : c.Admits op)
    (hretains : op.Retains c.pool.ledger.historyLimit) :
    Enters (c.endsOf op) c.pool.ledger (c.after op).pool.ledger := by
  by_cases hop : op.cause = some .loss
  · obtain ⟨now, l, ht⟩ := continues_of_cause h hlimited hop hretains
    exact ht.enters hlimited
  · have hends : c.endsOf op = c.pool.ledger.endsTo (c.after op).pool.ledger :=
      congrArg (List.filterMap Milestone.ended?) (milestonesOf_eq hop)
    rw [hends]
    exact (writes_after h hadmits).enters h.pool.ledger hlimited.one_le_historyLimit
      hlimited.history_le hop

theorem chronicle_of_retains (h : c.Sound) (hlimited : c.Limited) (hadmits : c.Admits op)
    (hretains : op.Retains c.pool.ledger.historyLimit)
    (hc : Chronicle Before ms c.given c.pool.ledger) :
    Chronicle Before (ms ++ c.milestonesOf op) (c.after op).given (c.after op).pool.ledger := by
  cases op with
  | restart now config caching =>
    obtain ⟨now, l, ht⟩ := continues_of_cause h hlimited rfl hretains
    exact ht.chronicle hlimited hc
  | _ => exact chronicle_after h hlimited hadmits (fun _ _ _ heq => by cases heq) hc

/-- Throughout an operation builds that are open stay, and those that end are seen to end. -/
theorem isChain_stages (h : c.Sound) (hlimited : c.Limited) (hadmits : c.Admits op) :
    List.IsChain KeepsOpen (c.pool.ledger :: c.stages op) := by
  by_cases hop : op.cause = some .loss
  · obtain ⟨now, l, ht⟩ := taking_of_cause h hlimited hop
    have hrecords := (sound_loseAll now (c.taken op) ht.sound).1.records
    have hlast : KeepsOpen (loseAll now (c.taken op) l).2 (c.after op).pool.ledger := by
      rw [ht.ends]
      exact keepsOpen_evict hrecords
    have hchain := isChain_losing ht.sound ht.kept now (c.taken op) hlast
    rw [← ht.during] at hchain
    obtain ⟨hfirst, hrest⟩ := List.isChain_cons.1 hchain
    apply List.isChain_cons.2
    refine ⟨fun l' hl' id hopen => hfirst l' hl' id ?_, hrest⟩
    exact (isOpen_congr ht.builds).2 hopen
  · have hnone : c.during op = [] := by
      cases op with
      | scan | restart => exact absurd rfl hop
      | _ => rfl
    unfold stages
    rw [hnone]
    apply List.isChain_pair.2
    intro id hopen
    exact (writes_after h hadmits).stays h.pool.ledger hlimited.one_le_historyLimit hop hopen

/-! ## Every run -/

/-- The history of a pool, set against the builds that ended on the way to it. -/
structure KeepsLatest (limit : Nat) (ended : List BuildId) (c : Course) : Prop where
  once : c.pool.ledger.history.Nodup
  listed : ∀ id, id ∈ c.pool.ledger.history ↔
    ∃ b, c.pool.ledger.find? id = some b ∧ b.isTerminal = true
  latest : c.pool.ledger.history = ended.rtake limit
  counted : ended.length = c.pool.ledger.counters.completed + c.pool.ledger.counters.failed +
    c.pool.ledger.counters.cancelled
  size : c.pool.ledger.history.length = min limit (c.pool.ledger.counters.completed +
    c.pool.ledger.counters.failed + c.pool.ledger.counters.cancelled)
  /-- Each build that is not open any more ended once. -/
  endedOnce : ended.Nodup
  allEnded : ∀ id, id ∈ ended ↔ id ∈ c.given ∧ ¬ c.pool.ledger.IsOpen id
  /-- Whatever comes next, a build that was open in one ledger is there in the following one. -/
  stays : ∀ op, c.Admits op → List.IsChain KeepsOpen (c.pool.ledger :: c.stages op)

theorem Run.enters {config : Config} {caching : Bool} (hrun : Run (start config caching) ops d)
    (hops : ∀ op ∈ ops, op.Retains config.retainedHistory) :
    Enters ((start config caching).along endsOf ops) (start config caching).pool.ledger
        d.pool.ledger ∧
      Chronicle (fun id => id ∈ (start config caching).given ∧
          ¬ (start config caching).pool.ledger.IsOpen id)
        ((start config caching).along milestonesOf ops) d.given d.pool.ledger := by
  have hstart := sound_start config caching
  induction hrun with
  | nil => exact ⟨.none (Nat.zero_le _) rfl rfl rfl, .empty hstart.pool.ledger.records⟩
  | @snoc ops d op hrun hadmits ih =>
    obtain ⟨henters, hchronicle⟩ := ih fun op hop => hops op (List.mem_append_left _ hop)
    have hsound := hrun.sound hstart
    have hlimited := hrun.limited hstart (.empty config.maxRetries config.retainedHistory)
    have hretains : op.Retains d.pool.ledger.historyLimit := by
      rw [henters.limit]
      exact hops op (List.mem_append_right _ List.mem_cons_self)
    rw [hrun.along_snoc, hrun.along_snoc]
    exact ⟨henters.trans (enters_after hsound hlimited hadmits hretains),
      chronicle_of_retains hsound hlimited hadmits hretains hchronicle⟩

/-- The history of a pool lists the builds that ended last, as many as its limit allows. -/
theorem history_latest {config : Config} {caching : Bool} {c : Course}
    (hrun : Run (start config caching) ops c)
    (hops : ∀ op ∈ ops, op.Retains config.retainedHistory) :
    c.KeepsLatest config.retainedHistory ((start config caching).along endsOf ops) := by
  have hsound := hrun.sound (sound_start config caching)
  have hlimited := hrun.limited (sound_start config caching)
    (.empty config.maxRetries config.retainedHistory)
  obtain ⟨henters, hchronicle⟩ := hrun.enters hops
  have hlatest : c.pool.ledger.history =
      ((start config caching).along endsOf ops).rtake config.retainedHistory := henters.history
  have hcounted : c.pool.ledger.counters.ended =
      0 + ((start config caching).along endsOf ops).length := henters.counted
  unfold Counters.ended at hcounted
  constructor
  case once => exact hsound.pool.ledger.records.once
  case listed => exact hsound.pool.ledger.records.ended
  case latest => exact hlatest
  case counted => omega
  case size =>
    rw [hlatest, List.rtake, List.length_drop]
    omega
  case endedOnce =>
    rw [along_endsOf]
    exact hchronicle.nodup_ended
  case allEnded =>
    intro id
    have hnew : ¬ (id ∈ (start config caching).given ∧
        ¬ (start config caching).pool.ledger.IsOpen id) := fun hold => List.not_mem_nil hold.1
    rw [along_endsOf, hchronicle.mem_ended]
    exact and_iff_left hnew
  case stays => exact fun op hadmits => isChain_stages hsound hlimited hadmits

/-- Three builds end in another order than they came, the last of them in a restart. -/
def threeEnds : List Op :=
  [.submit ⟨0, 0⟩ { project := "p", task := "t" } ⟨"a"⟩,
    .submit ⟨1, 0⟩ { project := "p", task := "t" } ⟨"b"⟩,
    .submit ⟨2, 0⟩ { project := "p", task := "t" } ⟨"c"⟩,
    .register ⟨3, 0⟩ { id := ⟨"w"⟩, address := "x", capacity := 1 },
    .pass ⟨4, 0⟩,
    .cancel ⟨5, 0⟩ ⟨"c"⟩,
    .satisfy ⟨6, 0⟩ ⟨"b"⟩ ["x"],
    .restart ⟨7, 0⟩ { maxRetries := 0, historyLimit := 2 } false]

theorem history_latest_threeEnds :
    (start { historyLimit := 2 } false).along endsOf threeEnds = [⟨"c"⟩, ⟨"b"⟩, ⟨"a"⟩] ∧
      (threeEnds.foldl after (start { historyLimit := 2 } false)).pool.ledger.history =
        [⟨"b"⟩, ⟨"a"⟩] ∧
      (threeEnds.foldl after (start { historyLimit := 2 } false)).KeepsLatest 2
        ((start { historyLimit := 2 } false).along endsOf threeEnds) := by
  have hb : (⟨"b"⟩ : BuildId) ∉ [⟨"a"⟩] := by decide
  have hc : (⟨"c"⟩ : BuildId) ∉ [⟨"a"⟩, ⟨"b"⟩] := by decide
  have hadmits : (start { historyLimit := 2 } false).AdmitsAll threeEnds :=
    ⟨List.not_mem_nil, hb, hc, trivial, trivial, trivial, trivial, trivial, trivial⟩
  have hops : ∀ op ∈ threeEnds, op.Retains ({ historyLimit := 2 } : Config).retainedHistory := by
    simp [threeEnds, Op.Retains, Config.retainedHistory]
  exact ⟨by cbv, by cbv, history_latest (run_foldl hadmits) hops⟩

end Course

end BuildPool
