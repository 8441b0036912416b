import BuildPool.Proofs.Pool.Evolution

/-!
# The queue in every reachable pool

However often a build is set aside, given back or restored, it has one entry while it waits, at the
place that its priority and its submission give it. Entries that builds left behind stay behind.
-/

namespace BuildPool

open BuildPool.Time

namespace Course

variable {c d : Course} {ops : List Op}

/-- The backlog of a pool stands for its queue, now and after everything that may come. -/
structure KeepsQueue (c : Course) : Prop where
  one_entry : ∀ id b, c.pool.ledger.find? id = some b → b.status = .queued →
    c.pool.ledger.backlog.toList.filter (fun e => decide (e.build = id)) =
      [⟨id, b.priority, b.sequence⟩]
  no_entry : ∀ id b, c.pool.ledger.find? id = some b →
    b.status = .assigned ∨ b.status = .running →
    ∀ e ∈ c.pool.ledger.backlog.toList, e.build ≠ id
  /-- All other entries are of builds that ended or were dropped, and these never come off. -/
  stale : ∀ e ∈ c.pool.ledger.backlog.toList,
    (∀ b, c.pool.ledger.find? e.build = some b → b.status ≠ .queued) →
    (∀ b, c.pool.ledger.find? e.build = some b → b.isTerminal = true) ∧
      ∀ ops d e' l, Run c ops d → d.pool.ledger.popQueued = (some e', l) → e'.build ≠ e.build
  drained : ∀ e, e ∈ c.pool.ledger.drainQueued ↔
    ∃ b, c.pool.ledger.find? b.id = some b ∧ b.status = .queued ∧
      e = ⟨b.id, b.priority, b.sequence⟩
  drained_once : (c.pool.ledger.drainQueued.map Entry.build).Nodup
  drained_in_order : c.pool.ledger.drainQueued.Pairwise fun a b =>
    b.priority.toInt < a.priority.toInt ∨
      (a.priority.toInt = b.priority.toInt ∧ a.sequence < b.sequence)
  /-- Numbers count the submissions. -/
  numbered : c.given.Nodup ∧ ∀ id b, c.pool.ledger.find? id = some b →
    ∃ k, c.given[k]? = some id ∧ b.sequence = k + 1
  later : ∀ ops d now r id b p, Run c ops d → id ∉ d.given →
    d.pool.submitAs now r id = .ok (b, p) →
    ∀ x bx, c.pool.ledger.find? x = some bx → bx.sequence < b.sequence
  unmoved : ∀ ops d id b b', Run c ops d → c.pool.ledger.find? id = some b →
    d.pool.ledger.find? id = some b' → b'.priority = b.priority ∧ b'.sequence = b.sequence

theorem Sound.keepsQueue (h : c.Sound) : c.KeepsQueue := by
  have hrecords := h.pool.ledger.records
  have hlists := h.pool.ledger.lists
  have hdrain : c.pool.ledger.drainQueued = c.pool.ledger.queue.map Build.entry := by
    rw [Ledger.drainQueued_eq_waiting, Ledger.waiting_eq_queue hrecords hlists]
  constructor
  case one_entry =>
    intro id b hb hq
    obtain rfl := Ledger.id_of_find? hb
    exact hlists.filter_eq hb hq
  case no_entry =>
    intro id b hb hs e he
    obtain rfl := Ledger.id_of_find? hb
    exact hlists.not_listed hb (BuildStatus.holdsWorker_iff.2 hs) he
  case stale =>
    intro e he hq
    have hend : ∀ b, c.pool.ledger.find? e.build = some b → b.isTerminal = true := by
      intro b hb
      rcases hlists.live e he b hb with hend | ⟨hqueued, -⟩
      · exact hend
      · exact absurd hqueued (hq b hb)
    exact ⟨hend, fun ops d e' l hrun => hrun.not_popped h (hlists.numbered e he).mem hend⟩
  case drained =>
    intro e
    rw [hdrain, List.mem_map]
    constructor
    · rintro ⟨b, hb, rfl⟩
      exact ⟨b, (Ledger.mem_queue_iff.1 hb).1, (Ledger.mem_queue_iff.1 hb).2, rfl⟩
    · rintro ⟨b, hb, hq, rfl⟩
      exact ⟨b, Ledger.mem_queue_iff.2 ⟨hb, hq⟩, rfl⟩
  case drained_once =>
    rw [hdrain, List.map_map]
    exact c.pool.ledger.nodup_queue_ids
  case drained_in_order =>
    rw [hdrain]
    refine List.pairwise_map.2 ((Ledger.queue_ordered hrecords).imp fun {a b} hab => ?_)
    exact (Entry.before_iff a.entry b.entry).1 hab
  case numbered =>
    refine ⟨h.fresh, fun id b hb => ?_⟩
    obtain ⟨hpos, hget⟩ := hrecords.numbered id b hb
    exact ⟨b.sequence - 1, hget, by omega⟩
  case later =>
    intro ops d now r id b p hrun hnew hs x bx hx
    exact hrun.sequence_lt h hnew hs hx
  case unmoved =>
    intro ops d id b b' hrun hb hb'
    exact hrun.unmoved h hb hb'

/-- In every reachable pool no queued build is lost, doubled, or moved in the queue. -/
theorem queue_kept (h : c.Reachable) : c.KeepsQueue := h.sound.keepsQueue

theorem queue_kept_twoBuilds :
    (twoBuilds.after (.pass ⟨3, 0⟩)).pool.ledger.drainQueued = [⟨⟨"a"⟩, 0, 1⟩] ∧
      (twoBuilds.after (.pass ⟨3, 0⟩)).KeepsQueue :=
  ⟨rfl, queue_kept (reachable_twoBuilds.after _ trivial)⟩

end Course

end BuildPool
