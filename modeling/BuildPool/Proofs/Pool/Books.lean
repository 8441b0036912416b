import Mathlib.Tactic
import BuildPool.Metrics
import BuildPool.Proofs.Ledger.Balance
import BuildPool.Proofs.Pool.Lifecycle

/-!
# The books of a pool

Whatever happens to a pool, restarts under other limits and evictions included, every build that was
submitted is still open or was counted when it ended, and no figure ever becomes smaller.
-/

namespace BuildPool

open BuildPool.Time Ledger

/-! ## Every operation -/

theorem Ledger.keepsBooks_give {now : Instant} {placed : List (Build × Worker)} {l : Ledger}
    (backlog : Backlog) (waits : ∀ x ∈ placed, l.find? x.1.id = some x.1 ∧ x.1.status = .queued)
    (once : (placed.map fun x => x.1.id).Nodup) :
    KeepsBooks l { give now placed l with backlog } := by
  apply KeepsBooks.of_isOpen
  · intro id
    change (give now placed l).IsOpen id ↔ l.IsOpen id
    unfold IsOpen
    rcases find?_give now waits once id with ⟨x, -, -, hx, hq, hgiven⟩ | hsame
    · have hopen := Build.isTerminal_eq_false_of_queued hq
      have hopen' : (x.1.assignTo x.2.id now).isTerminal = false := rfl
      simp [hgiven, hx, hopen, hopen']
    · rw [hsame]
  · rw [give_eq]

theorem Op.Writes.keepsBooks {op : Op} {given : List BuildId} {l l' : Ledger}
    (hl : l.Sound given) (h : op.Writes given l l') : KeepsBooks l l' := by
  cases h with
  | nothing => exact .refl l
  | submit fresh absent hs => exact keepsBooks_submit hl.records fresh hs
  | cancel hs =>
    obtain ⟨b, hb, ⟨-, -, rfl⟩ | ⟨hopen, -, rfl⟩⟩ := cancel_eq_ok hs
    · exact .refl _
    · obtain rfl := id_of_find? hb
      exact .archive (b := b) hl.records hb rfl hopen rfl rfl
  | @progress _ _ _ amount _ hs =>
    obtain ⟨b, hb, hheld, rfl⟩ := progress_eq_ok hs
    obtain rfl := id_of_find? hb
    have hid := b.advance_id amount
    have hstays := b.advance_holdsWorker (Build.heldBy_iff.1 hheld).1 amount
    exact .put (b := b) (by rw [hid, hb]) (Build.isTerminal_eq_false_of_heldBy hheld)
      (Build.isTerminal_eq_false_of_holdsWorker hstays)
  | complete hs =>
    obtain ⟨b, hb, hheld, rfl⟩ := complete_eq_ok hs
    obtain rfl := id_of_find? hb
    exact .archive (b := b) hl.records hb rfl (Build.isTerminal_eq_false_of_heldBy hheld)
      (isTerminal_verdict _) rfl
  | satisfy hs => exact keepsBooks_satisfy? hl.records hs
  | pass backlog waits once => exact keepsBooks_give backlog waits once
  | delivered hs =>
    obtain ⟨b, hb, ha, rfl⟩ := acknowledge?_eq_some hs
    obtain rfl := id_of_find? hb
    have hheld := (Build.awaits_iff.1 ha).2.2
    exact .put (b := b) hb (Build.isTerminal_eq_false_of_heldBy hheld) rfl
  | undelivered hs =>
    obtain ⟨b, hb, ha, rfl⟩ := rollback?_eq_some hs
    obtain rfl := id_of_find? hb
    have hheld := (Build.awaits_iff.1 ha).2.2
    have hput : KeepsBooks l (l.put b.requeue) :=
      .put (b := b) hb (Build.isTerminal_eq_false_of_heldBy hheld) rfl
    exact ⟨fun h => ⟨(hput.balanced h).submitted, (hput.balanced h).cached⟩, hput.grows⟩
  | scan pairs => exact keepsBooks_loseAll hl _ pairs
  | restart => exact keepsBooks_ofImage hl _ _ _

namespace Course

variable {c d : Course} {op : Op} {ops : List Op}

theorem keepsBooks_after (h : c.Sound) (hadmits : c.Admits op) :
    KeepsBooks c.pool.ledger (c.after op).pool.ledger :=
  (writes_after h hadmits).keepsBooks h.pool.ledger

/-! ## Every run -/

theorem Run.keepsBooks (h : c.Sound) (hrun : Run c ops d) :
    KeepsBooks c.pool.ledger d.pool.ledger := by
  induction hrun with
  | nil => exact .refl c.pool.ledger
  | snoc hrun hadmits ih => exact ih.trans (keepsBooks_after (hrun.sound h) hadmits)

theorem balanced_start (config : Config) (caching : Bool) :
    (start config caching).pool.ledger.Balanced :=
  ⟨rfl, Nat.le_refl 0⟩

theorem Reachable.balanced (h : c.Reachable) : c.pool.ledger.Balanced := by
  obtain ⟨config, caching, ops, hrun⟩ := h
  exact (hrun.keepsBooks (sound_start config caching)).balanced (balanced_start config caching)

/-- The figures of a pool fit together, and none of them becomes smaller. -/
structure Audited (c : Course) : Prop where
  submitted : c.pool.ledger.counters.submitted =
    c.pool.ledger.counters.completed + c.pool.ledger.counters.failed +
      c.pool.ledger.counters.cancelled + c.pool.ledger.countOf .queued +
      c.pool.ledger.countOf .assigned + c.pool.ledger.countOf .running
  cached : c.pool.ledger.counters.cacheHits ≤ c.pool.ledger.counters.completed
  grows : ∀ ops d, Run c ops d → c.pool.ledger.counters.Grows d.pool.ledger.counters
  served : ∀ m, m = Metrics.collect c.pool.ledger c.pool.roster →
    m.total = m.completed + m.failed + m.cancelled + m.queued + m.active

/-- In every reachable pool the builds that were submitted are those that ended and those that are
open. -/
theorem builds_conserved (h : c.Reachable) : c.Audited := by
  have hbalanced := h.balanced
  have hsubmitted := hbalanced.submitted
  rw [openCount_eq] at hsubmitted
  constructor
  case submitted => omega
  case cached => exact hbalanced.cached
  case grows => exact fun ops d hrun => (hrun.keepsBooks h.sound).grows
  case served =>
    rintro m rfl
    change c.pool.ledger.counters.submitted = c.pool.ledger.counters.completed +
      c.pool.ledger.counters.failed + c.pool.ledger.counters.cancelled +
      c.pool.ledger.countOf .queued +
      (c.pool.ledger.countOf .assigned + c.pool.ledger.countOf .running)
    omega

/-- One build that ended is kept at a time. A third build is with a worker when the pool restarts
with no retries allowed, and fails in the restart. -/
def failedInRestart : Course :=
  (((oneKept.after
    (.submit ⟨4, 0⟩ { project := "p", task := "t" } ⟨"c"⟩)).after
    (.register ⟨5, 0⟩ { id := ⟨"w"⟩, address := "x", capacity := 1 })).after
    (.pass ⟨6, 0⟩)).after
    (.restart ⟨7, 0⟩ { maxRetries := 0, historyLimit := 1 } false)

theorem reachable_failedInRestart : failedInRestart.Reachable := by
  have hnew : (⟨"c"⟩ : BuildId) ∉ oneKept.given := by decide
  have hsubmit := reachable_oneKept.after
    (.submit ⟨4, 0⟩ { project := "p", task := "t" } ⟨"c"⟩) hnew
  have hregister := hsubmit.after
    (.register ⟨5, 0⟩ { id := ⟨"w"⟩, address := "x", capacity := 1 }) trivial
  have hpass := hregister.after (.pass ⟨6, 0⟩) trivial
  exact hpass.after (.restart ⟨7, 0⟩ { maxRetries := 0, historyLimit := 1 } false) trivial

/-- Three builds are counted, and only the one that ended last is still kept. -/
theorem builds_conserved_failedInRestart :
    failedInRestart.pool.ledger.counters = ⟨3, 1, 1, 1, 0, 1⟩ ∧
      failedInRestart.pool.ledger.history = [⟨"c"⟩] ∧
      failedInRestart.Audited :=
  ⟨by cbv, by cbv, builds_conserved reachable_failedInRestart⟩

end Course

end BuildPool
