import BuildPool.Proofs.Pool.Refinement

/-!
# Nobody is overtaken

A pass leaves no build waiting that some worker could still take, and gives no worker a build in the
place of one that stands before it.
-/

namespace BuildPool

open BuildPool.Time

theorem Worker.hasFreeSlot_eq_false_iff {w : Worker} :
    w.hasFreeSlot = false ↔ w.isOnline = false ∨ w.info.capacity.toNat ≤ w.active.size := by
  rw [hasFreeSlot, Bool.and_eq_false_iff, decide_eq_false_iff_not, Nat.not_lt]
  rfl

namespace Pool

variable {given : List BuildId} {p : Pool}

/-- A build that still waits was in the queue and was not placed. -/
theorem of_queued_after_pass (h : p.Sound given) (now : Instant) {id : BuildId} {b : Build}
    (hb : (p.pass now).2.ledger.find? id = some b) (hq : b.status = .queued) :
    b ∈ p.ledger.queue ∧ ∀ x ∈ p.placements, x.1 ≠ b := by
  obtain rfl := Ledger.id_of_find? hb
  have hmem : b ∈ (p.pass now).2.ledger.queue := Ledger.mem_queue_iff.2 ⟨hb, hq⟩
  rw [queue_pass h, List.mem_filter, decide_eq_true_iff] at hmem
  exact ⟨hmem.1, fun x hx heq => hmem.2 x hx (congrArg Build.id heq)⟩

theorem fair_pass (h : p.Sound given) (now : Instant) {id : BuildId} {b : Build} {w : WorkerId}
    {worker : Worker} (hb : (p.pass now).2.ledger.find? id = some b) (hq : b.status = .queued)
    (hw : (p.pass now).2.roster.find? w = some worker)
    (hs : worker.info.supports b.task = true) :
    worker.hasFreeSlot = false ∧
      ∀ x ∈ p.placements, x.2.id = w → x.1.entry.before b.entry = true := by
  obtain ⟨hmem, hskip⟩ := of_queued_after_pass h now hb hq
  rw [roster_pass h] at hw
  exact Roster.allot_fair p.roster p.ledger.queue (Ledger.queue_ordered h.ledger.records) hmem
    hskip hw hs

end Pool

namespace Course

/-- After a pass in a reachable pool, take a build that still waits and a worker that can run it.
The worker is offline or full, and all builds that the pass gave it come before the one that
waits. -/
theorem pass_fair {c : Course} (h : c.Reachable) (now : Instant) {id : BuildId} {b : Build}
    {w : WorkerId} {worker : Worker} (hb : (c.pool.pass now).2.ledger.find? id = some b)
    (hq : b.status = .queued) (hw : (c.pool.pass now).2.roster.find? w = some worker)
    (hs : worker.info.supports b.task = true) :
    (worker.isOnline = false ∨ worker.info.capacity.toNat ≤ worker.active.size) ∧
      ∀ a ∈ (c.pool.pass now).1.assignments, a.worker = w →
        ∃ b', (c.pool.pass now).2.ledger.find? a.build = some b' ∧
          (b.priority.toInt < b'.priority.toInt ∨
            (b'.priority.toInt = b.priority.toInt ∧ b'.sequence < b.sequence)) := by
  have hsound := h.sound.pool
  obtain ⟨hfull, hbefore⟩ := Pool.fair_pass hsound now hb hq hw hs
  refine ⟨Worker.hasFreeSlot_eq_false_iff.1 hfull, fun a ha haw => ?_⟩
  rw [(Pool.pass_eq hsound now).1] at ha
  obtain ⟨x, hx, rfl⟩ := List.mem_map.1 ha
  refine ⟨x.1.assignTo x.2.id now, Pool.find?_pass_of_placed hsound now hx, ?_⟩
  exact (Entry.before_iff x.1.entry b.entry).1 (hbefore x hx haw)

theorem pass_fair_twoBuilds : ∃ b worker,
    ((twoBuilds.pool.pass ⟨3, 0⟩).2.ledger.find? ⟨"a"⟩ = some b ∧ b.status = .queued) ∧
      ((twoBuilds.pool.pass ⟨3, 0⟩).2.roster.find? ⟨"w"⟩ = some worker ∧
        worker.info.supports b.task = true) ∧
      (worker.isOnline = false ∨ worker.info.capacity.toNat ≤ worker.active.size) ∧
      ∀ a ∈ (twoBuilds.pool.pass ⟨3, 0⟩).1.assignments, a.worker = ⟨"w"⟩ →
        ∃ b', (twoBuilds.pool.pass ⟨3, 0⟩).2.ledger.find? a.build = some b' ∧
          (b.priority.toInt < b'.priority.toInt ∨
            (b'.priority.toInt = b.priority.toInt ∧ b'.sequence < b.sequence)) := by
  have hb : (twoBuilds.pool.pass ⟨3, 0⟩).2.ledger.find? ⟨"a"⟩ = some _ := rfl
  have hw : (twoBuilds.pool.pass ⟨3, 0⟩).2.roster.find? ⟨"w"⟩ = some _ := rfl
  exact ⟨_, _, ⟨hb, rfl⟩, ⟨hw, rfl⟩, pass_fair reachable_twoBuilds ⟨3, 0⟩ hb rfl hw rfl⟩

end Course

end BuildPool
