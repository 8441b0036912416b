import Mathlib.Tactic
import BuildPool.Proofs.Pool.Stages

/-!
# Retries

A build may lose its worker as often as the pool allows, and each time it is queued again. The loss
after that fails it. Its record counts just these returns, whatever else happens to the build.
-/

namespace BuildPool

open BuildPool.Time Ledger

/-- A restart under this limit, or no restart at all. -/
def Op.Allows (maxRetries : Nat) (op : Op) : Prop :=
  ∀ now config caching, op = .restart now config caching → config.maxRetries = maxRetries

theorem Op.Writes.retried_eq {op : Op} {given : List BuildId} {l l' : Ledger}
    (h : op.Writes given l l') (hop : op.cause ≠ some .loss) :
    l'.counters.retried = l.counters.retried := by
  have hend : ∀ (c : Counters) (s : BuildStatus), (c.countEnd s).retried = c.retried := by
    intro c s
    cases s <;> rfl
  cases h with
  | nothing => rfl
  | submit fresh absent hs =>
    obtain ⟨-, -, rfl⟩ := submit_eq_ok absent hs
    rfl
  | cancel hs =>
    obtain ⟨b, -, ⟨-, -, rfl⟩ | ⟨-, -, rfl⟩⟩ := cancel_eq_ok hs
    · rfl
    · exact hend l.counters _
  | progress hs =>
    obtain ⟨b, -, -, rfl⟩ := progress_eq_ok hs
    rfl
  | complete hs =>
    obtain ⟨b, -, -, rfl⟩ := complete_eq_ok hs
    exact hend l.counters _
  | satisfy hs =>
    obtain ⟨b, -, -, rfl⟩ := satisfy?_eq_some hs
    exact hend _ _
  | pass backlog waits once => rw [give_eq]
  | delivered hs =>
    obtain ⟨b, -, -, rfl⟩ := acknowledge?_eq_some hs
    rfl
  | undelivered hs =>
    obtain ⟨b, -, -, rfl⟩ := rollback?_eq_some hs
    rfl
  | scan | restart => exact absurd rfl hop

/-- The record counts the returns of its build, and while the build is open these are all its
losses. -/
structure Build.Tallied (maxRetries : Nat) (losses requeues : List BuildId) (b : Build) :
    Prop where
  counted : b.retries = requeues.count b.id
  bounded : b.retries ≤ maxRetries
  returned : b.isTerminal = false → losses.count b.id = b.retries

namespace Build.Tallied

variable {maxRetries : Nat} {losses requeues lost back : List BuildId} {b b' : Build}

/-- The build lost its worker once more and was queued again. -/
theorem requeue (h : b.Tallied maxRetries losses requeues) (hopen : b.isTerminal = false)
    (hleft : b.retries < maxRetries) (hlost : lost.count b.id = 1) (hback : back.count b.id = 1) :
    ({ b with retries := b.retries + 1 }.requeue).Tallied maxRetries (losses ++ lost)
      (requeues ++ back) := by
  have hcounted := h.counted
  have hreturned := h.returned hopen
  constructor
  · change b.retries + 1 = (requeues ++ back).count b.id
    rw [List.count_append]
    omega
  · exact hleft
  · intro _
    change (losses ++ lost).count b.id = b.retries + 1
    rw [List.count_append]
    omega

/-- The build lost its worker once more and failed. -/
theorem fail (h : b.Tallied maxRetries losses requeues) (hid : b'.id = b.id)
    (hend : b'.isTerminal = true) (hspent : ¬ b.retries < maxRetries)
    (hretries : b'.retries = maxRetries) (hback : back.count b.id = 0) :
    b'.Tallied maxRetries (losses ++ lost) (requeues ++ back) := by
  have hcounted := h.counted
  have hbounded := h.bounded
  constructor
  · rw [hid, List.count_append]
    omega
  · omega
  · intro hopen
    rw [hend] at hopen
    cases hopen

/-- Other builds lost their workers. -/
theorem keep (h : b.Tallied maxRetries losses requeues) (hid : b'.id = b.id)
    (hretries : b'.retries = b.retries) (hopen : b'.isTerminal = false → b.isTerminal = false)
    (hlost : lost.count b.id = 0) (hback : back.count b.id = 0) :
    b'.Tallied maxRetries (losses ++ lost) (requeues ++ back) := by
  have hcounted := h.counted
  have hbounded := h.bounded
  constructor
  · rw [hid, List.count_append]
    omega
  · omega
  · intro hopen'
    have hreturned := h.returned (hopen hopen')
    rw [hid, List.count_append]
    omega

end Build.Tallied

namespace Course

variable {c d : Course} {op : Op} {ops : List Op} {id : BuildId} {w : WorkerId} {b b' : Build}
  {maxRetries : Nat} {losses requeues : List BuildId}

/-! ## One operation -/

/-- The builds that lose their workers. -/
def lostBy (c : Course) (op : Op) : List BuildId := (c.taken op).map Prod.fst

/-- The builds that lose their workers and are queued again. -/
def requeuedBy (c : Course) (op : Op) : List BuildId :=
  (c.lostBy op).filter (c.after op).pool.ledger.isQueued

theorem nodup_lostBy (h : c.Sound) (op : Op) : (c.lostBy op).Nodup := (holding_taken h op).once

theorem mem_lostBy : id ∈ c.lostBy op ↔ ∃ w, (id, w) ∈ c.taken op := by
  unfold lostBy
  rw [List.mem_map]
  constructor
  · rintro ⟨⟨id, w⟩, hmem, rfl⟩
    exact ⟨w, hmem⟩
  · rintro ⟨w, hmem⟩
    exact ⟨(id, w), hmem, rfl⟩

theorem cause_of_mem_taken (hmem : (id, w) ∈ c.taken op) : op.cause = some .loss := by
  cases op with
  | scan | restart => rfl
  | _ => cases hmem

theorem heldBy_of_mem_taken (h : c.Sound) (hmem : (id, w) ∈ c.taken op)
    (hb : c.pool.ledger.find? id = some b) : b.heldBy w = true := by
  obtain ⟨x, hx, hheld⟩ := (holding_taken h op).held (id, w) hmem
  rw [hb] at hx
  cases hx
  exact hheld

theorem find?_of_mem_lostBy (h : c.Sound) (hid : id ∈ c.lostBy op) :
    ∃ b, c.pool.ledger.find? id = some b ∧ b.isTerminal = false := by
  obtain ⟨w, hmem⟩ := mem_lostBy.1 hid
  obtain ⟨b, hb, hheld⟩ := (holding_taken h op).held (id, w) hmem
  exact ⟨b, hb, Build.isTerminal_eq_false_of_heldBy hheld⟩

/-- A build that stays with its worker, or has none, is not tried again. -/
theorem retries_after (h : c.Sound) (hlimited : c.Limited) (hadmits : c.Admits op)
    (hout : id ∉ c.lostBy op) (hb : c.pool.ledger.find? id = some b)
    (hb' : (c.after op).pool.ledger.find? id = some b') : b'.retries = b.retries := by
  rcases makes_of_find? h hadmits hb hb' with rfl | ⟨-, k, maxRetries, hcause, hchange⟩
  · rfl
  · apply hchange.retries_eq
    rintro rfl
    -- The build was with a worker, and would still be with it.
    obtain ⟨now, l, htaking⟩ := taking_of_cause h hlimited hcause
    have hheld := hchange.holdsWorker_of_loss
    have hworker := h.pool.ledger.records.worker id b hb
    rw [hheld] at hworker
    obtain ⟨w, hw⟩ := Option.isSome_iff_exists.1 hworker
    have hbefore : c.pool.ledger.HeldBy id w := ⟨b, hb, Build.heldBy_iff.2 ⟨hheld, hw⟩⟩
    have hkept : (id, w) ∉ c.taken op := fun hmem => hout (mem_lostBy.2 ⟨w, hmem⟩)
    obtain ⟨x, hx, hxw⟩ := htaking.heldBy.2 ⟨hbefore, hkept⟩
    rw [hb'] at hx
    cases hx
    have hfree := hchange.free_of_loss
    rw [(Build.heldBy_iff.1 hxw).1] at hfree
    cases hfree

theorem requeued_after (h : c.Sound) (hlimited : c.Limited) (hid : id ∈ c.lostBy op)
    (hb : c.pool.ledger.find? id = some b)
    (hleft : b.retries < (c.after op).pool.ledger.maxRetries) :
    (c.after op).pool.ledger.find? id = some { b with retries := b.retries + 1 }.requeue := by
  obtain ⟨w, hmem⟩ := mem_lostBy.1 hid
  obtain ⟨now, l, htaking⟩ := taking_of_cause h hlimited (cause_of_mem_taken hmem)
  have hkept := htaking.remembers h hmem hb
  unfold Build.lost at hkept
  rw [if_pos hleft] at hkept
  have hfind := hkept.find?_eq rfl
  obtain rfl := id_of_find? hb
  exact hfind

/-- A build that failed so is seen as failed, and stays as it was seen while it is kept. -/
theorem failed_after (h : c.Sound) (hlimited : c.Limited) (hid : id ∈ c.lostBy op)
    (hb : c.pool.ledger.find? id = some b)
    (hspent : (c.after op).pool.ledger.maxRetries ≤ b.retries) :
    ∃ stage ∈ c.stages op, ∃ x, stage.find? id = some x ∧ x.status = .failed ∧
      x.error? = some retriesExhausted ∧ x.retries = (c.after op).pool.ledger.maxRetries ∧
      ∀ b', (c.after op).pool.ledger.find? id = some b' → b' = x := by
  obtain ⟨w, hmem⟩ := mem_lostBy.1 hid
  obtain ⟨now, l, htaking⟩ := taking_of_cause h hlimited (cause_of_mem_taken hmem)
  obtain ⟨stage, hstage, hlost⟩ := htaking.exists_stage h hmem hb
  have hkept := htaking.remembers h hmem hb
  refine ⟨stage, hstage, _, hlost, ?_⟩
  have hsame : ∀ b', (c.after op).pool.ledger.find? id = some b' →
      b' = b.lost (c.after op).pool.ledger.maxRetries now := by
    intro b' hb'
    unfold Remembers at hkept
    rw [Build.lost_id, id_of_find? hb, hb'] at hkept
    rcases hkept with heq | ⟨hnone, -⟩
    · exact Option.some.inj heq
    · cases hnone
  unfold Build.lost at hsame ⊢
  rw [if_neg (Nat.not_lt.2 hspent)] at hsame ⊢
  exact ⟨rfl, rfl, rfl, hsame⟩

theorem mem_requeuedBy (h : c.Sound) (hlimited : c.Limited) (hid : id ∈ c.lostBy op)
    (hb : c.pool.ledger.find? id = some b) :
    id ∈ c.requeuedBy op ↔ b.retries < (c.after op).pool.ledger.maxRetries := by
  unfold requeuedBy
  rw [List.mem_filter]
  constructor
  · rintro ⟨-, hq⟩
    apply Classical.byContradiction
    intro hspent
    obtain ⟨-, -, x, -, hfailed, -, -, hsame⟩ :=
      failed_after h hlimited hid hb (Nat.le_of_not_lt hspent)
    obtain ⟨b', hb', hstatus⟩ := (Option.any_eq_true ..).1 hq
    rw [hsame b' hb', hfailed] at hstatus
    cases hstatus
  · intro hleft
    refine ⟨hid, ?_⟩
    unfold isQueued
    rw [requeued_after h hlimited hid hb hleft]
    rfl

theorem retried_after (h : c.Sound) (hlimited : c.Limited) (hadmits : c.Admits op) :
    (c.after op).pool.ledger.counters.retried =
      c.pool.ledger.counters.retried + (c.requeuedBy op).length := by
  by_cases hop : op.cause = some .loss
  · obtain ⟨now, l, htaking⟩ := taking_of_cause h hlimited hop
    have hcounted := retried_loseAll now htaking.sound.records.listsEnds (htaking.holding h)
    have hsame : ((c.taken op).countP fun y => (l.lossOf y.1).isRequeued) =
        (c.taken op).countP ((c.after op).pool.ledger.isQueued ∘ Prod.fst) := by
      apply List.countP_congr
      intro y hy
      obtain ⟨b, hb, -⟩ := (holding_taken h op).held y hy
      have hid : y.1 ∈ c.lostBy op := List.mem_map_of_mem hy
      have hiff := mem_requeuedBy h hlimited hid hb
      unfold requeuedBy at hiff
      rw [List.mem_filter, htaking.limit] at hiff
      rw [lossOf_of_find? ((htaking.builds y.1).trans hb)]
      simp only [hid, true_and] at hiff
      rw [Function.comp_apply, hiff]
      split
      · rename_i hleft
        simp [Loss.isRequeued, hleft]
      · rename_i hspent
        simp [Loss.isRequeued, hspent]
    rw [htaking.ends]
    change (loseAll now (c.taken op) l).2.counters.retried = _
    rw [hcounted, htaking.retried, hsame]
    unfold requeuedBy lostBy
    rw [← List.countP_eq_length_filter, List.countP_map]
  · have hnone : c.requeuedBy op = [] := by
      cases op with
      | scan | restart => exact absurd rfl hop
      | _ => rfl
    rw [hnone]
    exact (writes_after h hadmits).retried_eq hop

theorem count_lostBy (h : c.Sound) (op : Op) (id : BuildId) :
    (c.lostBy op).count id = if id ∈ c.lostBy op then 1 else 0 :=
  (nodup_lostBy h op).count

theorem count_requeuedBy (h : c.Sound) (op : Op) (id : BuildId) :
    (c.requeuedBy op).count id = if id ∈ c.requeuedBy op then 1 else 0 :=
  ((nodup_lostBy h op).sublist List.filter_sublist).count

theorem limit_after (h : c.Sound) (hlimited : c.Limited) (hadmits : c.Admits op)
    (hlimit : c.pool.ledger.maxRetries = maxRetries) (hallows : op.Allows maxRetries) :
    (c.after op).pool.ledger.maxRetries = maxRetries := by
  have hafter := limited_after h hadmits hlimited
  by_cases hop : ∃ now config caching, op = .restart now config caching
  · obtain ⟨now, config, caching, rfl⟩ := hop
    exact hafter.retries.trans (hallows now config caching rfl)
  · have hne : ∀ now config caching, op ≠ .restart now config caching :=
      fun now config caching heq => hop ⟨now, config, caching, heq⟩
    rw [hafter.retries, config_after c hne, ← hlimited.retries]
    exact hlimit

/-! ## Every run -/

/-- The losses and returns of all builds so far, set against the ledger. -/
structure Tally (maxRetries : Nat) (losses requeues : List BuildId) (c : Course) : Prop where
  limit : c.pool.ledger.maxRetries = maxRetries
  lost : ∀ id ∈ losses, id ∈ c.given
  requeued : ∀ id ∈ requeues, id ∈ c.given
  builds : ∀ id b, c.pool.ledger.find? id = some b → b.Tallied maxRetries losses requeues
  total : c.pool.ledger.counters.retried = requeues.length

theorem tally_start (config : Config) (caching : Bool) :
    Tally config.maxRetries [] [] (start config caching) where
  limit := rfl
  lost _ h := by cases h
  requeued _ h := by cases h
  builds _ _ h := by cases h
  total := rfl

theorem Tally.build_after (h : c.Sound) (hlimited : c.Limited) (hadmits : c.Admits op)
    (htally : Tally maxRetries losses requeues c)
    (hlimit : (c.after op).pool.ledger.maxRetries = maxRetries)
    (hb : c.pool.ledger.find? id = some b)
    (hb' : (c.after op).pool.ledger.find? id = some b') :
    b'.Tallied maxRetries (losses ++ c.lostBy op) (requeues ++ c.requeuedBy op) := by
  have htallied := htally.builds id b hb
  have hlosses := count_lostBy h op id
  have hrequeues := count_requeuedBy h op id
  obtain rfl := id_of_find? hb
  have hid := id_of_find? hb'
  by_cases hlost : b.id ∈ c.lostBy op
  · have hopen := Build.isTerminal_eq_false_of_heldBy
      (heldBy_of_mem_taken h (mem_lostBy.1 hlost).choose_spec hb)
    have hiff := mem_requeuedBy h hlimited hlost hb
    rw [hlimit] at hiff
    rw [if_pos hlost] at hlosses
    by_cases hleft : b.retries < maxRetries
    · have hback := requeued_after h hlimited hlost hb (hlimit ▸ hleft)
      rw [hb'] at hback
      cases hback
      rw [if_pos (hiff.2 hleft)] at hrequeues
      exact htallied.requeue hopen hleft hlosses hrequeues
    · obtain ⟨-, -, x, -, hfailed, -, hretries, hsame⟩ :=
        failed_after h hlimited hlost hb (hlimit ▸ Nat.le_of_not_lt hleft)
      obtain rfl := hsame b' hb'
      have hend : b'.isTerminal = true := by
        rw [Build.isTerminal, hfailed]
        rfl
      rw [if_neg fun hmem => hleft (hiff.1 hmem)] at hrequeues
      exact htallied.fail hid hend hleft (hretries.trans hlimit) hrequeues
  · have hnone : b.id ∉ c.requeuedBy op := fun hmem => hlost (List.mem_filter.1 hmem).1
    rw [if_neg hlost] at hlosses
    rw [if_neg hnone] at hrequeues
    apply htallied.keep hid (retries_after h hlimited hadmits hlost hb hb') ?_ hlosses hrequeues
    intro hstays
    cases hend : b.isTerminal with
    | false => rfl
    | true =>
      have hrun : Run c [op] (c.after op) := Run.nil.snoc hadmits
      rw [(hrun.of_find? h hb hb').2 hend, hend] at hstays
      exact hstays

theorem Tally.after (h : c.Sound) (hlimited : c.Limited) (hadmits : c.Admits op)
    (hallows : op.Allows maxRetries) (htally : Tally maxRetries losses requeues c) :
    Tally maxRetries (losses ++ c.lostBy op) (requeues ++ c.requeuedBy op) (c.after op) := by
  have hlimit := limit_after h hlimited hadmits htally.limit hallows
  have hold : ∀ x ∈ c.given, x ∈ (c.after op).given := (given_after c op).subset
  have hgiven : ∀ x ∈ c.lostBy op, x ∈ (c.after op).given := by
    intro x hx
    obtain ⟨b, hb, -⟩ := find?_of_mem_lostBy h hx
    exact hold x (h.pool.ledger.records.numbered x b hb).mem
  constructor
  case limit => exact hlimit
  case lost =>
    intro x hx
    rcases List.mem_append.1 hx with hx | hx
    · exact hold x (htally.lost x hx)
    · exact hgiven x hx
  case requeued =>
    intro x hx
    rcases List.mem_append.1 hx with hx | hx
    · exact hold x (htally.requeued x hx)
    · exact hgiven x (List.mem_filter.1 hx).1
  case builds =>
    intro id b' hb'
    cases hb : c.pool.ledger.find? id with
    | some b => exact htally.build_after h hlimited hadmits hlimit hb hb'
    | none =>
      -- A build that was just submitted lost no worker yet.
      obtain ⟨now, r, rfl, rfl⟩ := eq_submit_of_new h hadmits hb hb'
      have hlost : losses.count id = 0 :=
        List.count_eq_zero.2 fun hmem => hadmits (htally.lost id hmem)
      have hrequeued : requeues.count id = 0 :=
        List.count_eq_zero.2 fun hmem => hadmits (htally.requeued id hmem)
      constructor
      · change 0 = (requeues ++ []).count id
        rw [List.append_nil, hrequeued]
      · exact Nat.zero_le maxRetries
      · intro _
        change (losses ++ []).count id = 0
        rw [List.append_nil, hlost]
  case total =>
    rw [retried_after h hlimited hadmits, htally.total, List.length_append]

theorem Run.tally {config : Config} {caching : Bool} (hrun : Run (start config caching) ops d)
    (hallows : ∀ op ∈ ops, op.Allows config.maxRetries) :
    Tally config.maxRetries ((start config caching).along lostBy ops)
      ((start config caching).along requeuedBy ops) d := by
  induction hrun with
  | nil => exact tally_start config caching
  | snoc hrun hadmits ih =>
    have hsound := hrun.sound (sound_start config caching)
    have hlimited := hrun.limited (sound_start config caching)
      (Within.empty config.maxRetries config.retainedHistory)
    have hbefore := ih fun op hop => hallows op (List.mem_append_left _ hop)
    rw [hrun.along_snoc, hrun.along_snoc]
    exact hbefore.after hsound hlimited hadmits
      (hallows _ (List.mem_append_right _ List.mem_cons_self))

/-! ## All of it -/

/-- The losses and the returns of all builds up to now, what the records make of them, and what the
next loss of a build brings. -/
structure CountsRetries (maxRetries : Nat) (losses requeues : List BuildId) (c : Course) :
    Prop where
  scanned : ∀ now judged id, id ∈ c.lostBy (.scan now judged) ↔
    ∃ b w, c.pool.ledger.find? id = some b ∧ (b.status = .assigned ∨ b.status = .running) ∧
      b.worker = some w ∧ w ∈ c.pool.roster.stale judged c.pool.heartbeatTimeout
  restarted : ∀ now config caching id, id ∈ c.lostBy (.restart now config caching) ↔
    ∃ b, c.pool.ledger.find? id = some b ∧ (b.status = .assigned ∨ b.status = .running)
  counted : ∀ id b, c.pool.ledger.find? id = some b → b.retries = requeues.count id
  bounded : ∀ id b, c.pool.ledger.find? id = some b → b.retries ≤ maxRetries
  requeued : ∀ op id, c.Admits op → op.Allows maxRetries → id ∈ c.lostBy op →
    losses.count id < maxRetries →
    ∃ b', (c.after op).pool.ledger.find? id = some b' ∧ b'.status = .queued ∧
      b'.retries = losses.count id + 1
  /-- The build is seen as failed in the course of the operation, and stays so until it is
  dropped. -/
  failed : ∀ op id, c.Admits op → op.Allows maxRetries → id ∈ c.lostBy op →
    maxRetries ≤ losses.count id →
    losses.count id = maxRetries ∧
    ∃ stage ∈ c.stages op, ∃ x, stage.find? id = some x ∧ x.status = .failed ∧
      x.error? = some "max retries exceeded" ∧ x.retries = maxRetries ∧
      ∀ b', (c.after op).pool.ledger.find? id = some b' → b' = x
  untouched : ∀ op id b b', c.Admits op → id ∉ c.lostBy op →
    c.pool.ledger.find? id = some b → (c.after op).pool.ledger.find? id = some b' →
    b'.retries = b.retries
  /-- All returns are counted, each of a build that was submitted. -/
  total : c.pool.ledger.counters.retried = requeues.length ∧ ∀ id ∈ requeues, id ∈ c.given

theorem Tally.countsRetries (h : c.Sound) (hlimited : c.Limited)
    (htally : Tally maxRetries losses requeues c) :
    c.CountsRetries maxRetries losses requeues := by
  constructor
  case scanned =>
    intro now judged id
    rw [mem_lostBy]
    simp only [mem_taken_scan h, HeldBy, Build.heldBy_iff, BuildStatus.holdsWorker_iff]
    constructor
    · rintro ⟨w, ⟨b, hb, hs, hw⟩, hstale⟩
      exact ⟨b, w, hb, hs, hw, hstale⟩
    · rintro ⟨b, w, hb, hs, hw, hstale⟩
      exact ⟨w, ⟨b, hb, hs, hw⟩, hstale⟩
  case restarted =>
    intro now config caching id
    rw [mem_lostBy]
    simp only [mem_taken_restart, HeldBy, Build.heldBy_iff]
    constructor
    · rintro ⟨w, b, hb, hs, -⟩
      exact ⟨b, hb, BuildStatus.holdsWorker_iff.1 hs⟩
    · rintro ⟨b, hb, hs⟩
      have hheld := BuildStatus.holdsWorker_iff.2 hs
      have hworker := h.pool.ledger.records.worker id b hb
      rw [hheld] at hworker
      obtain ⟨w, hw⟩ := Option.isSome_iff_exists.1 hworker
      exact ⟨w, b, hb, hheld, hw⟩
  case counted =>
    intro id b hb
    have hcounted := (htally.builds id b hb).counted
    rw [id_of_find? hb] at hcounted
    exact hcounted
  case bounded => exact fun id b hb => (htally.builds id b hb).bounded
  case requeued =>
    intro op id hadmits hallows hid hleft
    have hlimit := limit_after h hlimited hadmits htally.limit hallows
    obtain ⟨b, hb, hopen⟩ := find?_of_mem_lostBy h hid
    have hreturned := (htally.builds id b hb).returned hopen
    rw [id_of_find? hb] at hreturned
    have hback := requeued_after h hlimited hid hb (by omega)
    refine ⟨_, hback, rfl, ?_⟩
    change b.retries + 1 = losses.count id + 1
    omega
  case failed =>
    intro op id hadmits hallows hid hspent
    have hlimit := limit_after h hlimited hadmits htally.limit hallows
    obtain ⟨b, hb, hopen⟩ := find?_of_mem_lostBy h hid
    have hreturned := (htally.builds id b hb).returned hopen
    have hbounded := (htally.builds id b hb).bounded
    rw [id_of_find? hb] at hreturned
    have hfailed := failed_after h hlimited hid hb (by omega)
    rw [hlimit] at hfailed
    exact ⟨by omega, hfailed⟩
  case untouched =>
    exact fun op id b b' hadmits hout hb hb' => retries_after h hlimited hadmits hout hb hb'
  case total => exact ⟨htally.total, htally.requeued⟩

/-- In every run under one limit the records count the returns of their builds. -/
theorem retries_counted {config : Config} {caching : Bool}
    (hrun : Run (start config caching) ops d)
    (hallows : ∀ op ∈ ops, op.Allows config.maxRetries) :
    d.CountsRetries config.maxRetries ((start config caching).along lostBy ops)
      ((start config caching).along requeuedBy ops) := by
  have hsound := hrun.sound (sound_start config caching)
  have hlimited := hrun.limited (sound_start config caching)
    (Within.empty config.maxRetries config.retainedHistory)
  exact (hrun.tally hallows).countsRetries hsound hlimited

/-- A build may lose its worker once. It is with a worker at each of two restarts. -/
def lostTwice : List Op :=
  [.submit ⟨0, 0⟩ { project := "p", task := "t" } ⟨"a"⟩,
    .register ⟨1, 0⟩ { id := ⟨"w"⟩, address := "x", capacity := 1 },
    .pass ⟨2, 0⟩,
    .restart ⟨3, 0⟩ { maxRetries := 1 } false,
    .heartbeat ⟨4, 0⟩ ⟨"w"⟩ {},
    .pass ⟨5, 0⟩,
    .restart ⟨6, 0⟩ { maxRetries := 1, historyLimit := 5 } false]

theorem run_lostTwice : Run (start { maxRetries := 1 } false) lostTwice
    (lostTwice.foldl Course.after (start { maxRetries := 1 } false)) :=
  run_foldl ⟨List.not_mem_nil, trivial, trivial, trivial, trivial, trivial, trivial, trivial⟩

theorem allows_lostTwice : ∀ op ∈ lostTwice, op.Allows 1 := by
  intro op hop now config caching heq
  subst heq
  simp only [lostTwice, List.mem_cons, Op.restart.injEq, reduceCtorEq, false_or,
    List.not_mem_nil, or_false] at hop
  rcases hop with ⟨-, rfl, -⟩ | ⟨-, rfl, -⟩
  · rfl
  · rfl

theorem retries_counted_lostTwice :
    (start { maxRetries := 1 } false).along lostBy lostTwice = [⟨"a"⟩, ⟨"a"⟩] ∧
    (start { maxRetries := 1 } false).along requeuedBy lostTwice = [⟨"a"⟩] ∧
    (lostTwice.foldl Course.after (start { maxRetries := 1 } false)).CountsRetries 1
      ((start { maxRetries := 1 } false).along lostBy lostTwice)
      ((start { maxRetries := 1 } false).along requeuedBy lostTwice) :=
  ⟨by cbv, by cbv, retries_counted run_lostTwice allows_lostTwice⟩

end Course

end BuildPool
