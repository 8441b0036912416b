import BuildPool.Proofs.Ledger.Changes
import BuildPool.Proofs.Pool.Refinement

/-!
# What operations write

Each operation of a pool does to its ledger what one operation of the ledger does, or nothing; a
pass gives out builds, and a scan takes builds from their workers one after the other. What is to
hold of ledgers over time need only be looked at here, operation by operation.
-/

namespace BuildPool

open BuildPool.Time Ledger

/-- What an operation of a pool can do to the ledger. -/
inductive Op.Writes (given : List BuildId) (l : Ledger) : Op → Ledger → Prop
  | nothing (op : Op) : Writes given l op l
  | submit {now : Instant} {r : Request} {id : BuildId} {b : Build} {l' : Ledger}
    (fresh : id ∉ given) (absent : l.find? id = none)
    (h : l.submit r id now = .ok (b, l')) : Writes given l (.submit now r id) l'
  | cancel {now : Instant} {id : BuildId} {answer : Cancellation} {l' : Ledger}
    (h : l.cancel id now = .ok (answer, l')) : Writes given l (.cancel now id) l'
  | progress {now : Instant} {id : BuildId} {w : WorkerId} {amount : Float} {l' : Ledger}
    (h : l.progress id w amount = .ok (some l')) : Writes given l (.progress now id w amount) l'
  | complete {now : Instant} {id : BuildId} {r : Report} {l' : Ledger}
    (h : l.complete id r now = .ok (some l')) : Writes given l (.complete now id r) l'
  | satisfy {now : Instant} {id : BuildId} {artifacts : List String} {l' : Ledger}
    (h : l.satisfy? id artifacts now = some l') : Writes given l (.satisfy now id artifacts) l'
  | pass {now : Instant} {placed : List (Build × Worker)} (backlog : Backlog)
    (waits : ∀ x ∈ placed, l.find? x.1.id = some x.1 ∧ x.1.status = .queued)
    (once : (placed.map fun x => x.1.id).Nodup) :
    Writes given l (.pass now) { give now placed l with backlog }
  | delivered {now : Instant} {place : Nat} {id : BuildId} {w : WorkerId} {attempt : Nat}
    {l' : Ledger} (h : l.acknowledge? id w attempt = some l') :
    Writes given l (.delivered now place) l'
  | undelivered {place : Nat} {id : BuildId} {w : WorkerId} {attempt : Nat} {l' : Ledger}
    (h : l.rollback? id w attempt = some l') : Writes given l (.undelivered place) l'
  | scan {now judged : Instant} (pairs : List (BuildId × WorkerId)) :
    Writes given l (.scan now judged) (loseAll now pairs l).2
  | restart {now : Instant} {config : Config} {caching : Bool} :
    Writes given l (.restart now config caching)
      (ofImage l.toImage config.maxRetries config.retainedHistory now).2

/-! ## Passes -/

/-- A pass writes the records of the builds that it gives out, and leaves the others. -/
theorem Ledger.find?_give (now : Instant) {placed : List (Build × Worker)} {l : Ledger}
    (waits : ∀ x ∈ placed, l.find? x.1.id = some x.1 ∧ x.1.status = .queued)
    (once : (placed.map fun x => x.1.id).Nodup) (id : BuildId) :
    (∃ x ∈ placed, x.1.id = id ∧ l.find? id = some x.1 ∧ x.1.status = .queued ∧
      (give now placed l).find? id = some (x.1.assignTo x.2.id now)) ∨
    (give now placed l).find? id = l.find? id := by
  by_cases hid : ∃ x ∈ placed, x.1.id = id
  · obtain ⟨x, hx, rfl⟩ := hid
    exact .inl ⟨x, hx, rfl, (waits x hx).1, (waits x hx).2, find?_give_of_mem l once hx⟩
  · exact .inr (find?_give_of_not_mem l fun x hx heq => hid ⟨x, hx, heq⟩)

theorem Ledger.changes_give {given : List BuildId} {now : Instant}
    {placed : List (Build × Worker)} {l : Ledger} {backlog : Backlog}
    (waits : ∀ x ∈ placed, l.find? x.1.id = some x.1 ∧ x.1.status = .queued)
    (once : (placed.map fun x => x.1.id).Nodup) :
    Changes given (Build.Change l.maxRetries .assignment) l
      { give now placed l with backlog } := by
  have hfind := find?_give now waits once
  constructor
  case former =>
    intro id _ b' hb'
    change (give now placed l).find? id = some b' at hb'
    rcases hfind id with ⟨x, -, -, hx, hq, hgiven⟩ | hsame
    · rw [hgiven] at hb'
      cases hb'
      exact ⟨x.1, hx, .inr (.assigned x.2.id now hq)⟩
    · rw [hsame] at hb'
      exact ⟨b', hb', .inl rfl⟩
  case dropped =>
    intro id b hb hnone
    change (give now placed l).find? id = none at hnone
    rcases hfind id with ⟨x, -, -, -, -, hgiven⟩ | hsame
    · rw [hgiven] at hnone
      cases hnone
    · rw [hsame, hb] at hnone
      cases hnone

/-! ## Every operation -/

namespace Course

variable {c : Course} {op : Op}

theorem writes_enter {α : Type} {result : Except Refusal (α × Pool)}
    (hp : ∀ a p, result = .ok (a, p) → op.Writes c.given c.pool.ledger p.ledger) :
    op.Writes c.given c.pool.ledger (c.enter result).pool.ledger :=
  of_enter (P := fun p => op.Writes c.given c.pool.ledger p.ledger) (.nothing op) hp

theorem writes_after (h : c.Sound) (hadmits : c.Admits op) :
    op.Writes c.given c.pool.ledger (c.after op).pool.ledger := by
  cases op with
  | submit now r id =>
    simp only [after]
    split
    · rename_i b p hp
      obtain ⟨l, hl, hledger, -⟩ := Pool.submitAs_eq_ok hp
      rw [hledger]
      exact .submit hadmits (h.pool.ledger.records.find?_eq_none hadmits) hl
    · exact .nothing _
  | cancel now id =>
    refine writes_enter fun answer p hp => ?_
    obtain ⟨l, hl, rfl⟩ := Pool.cancel_eq_ok hp
    split
    · rw [(Pool.tables_announceCancellation _ _ _ _).1]
      split
      · rw [Pool.ledger_free]
        exact .cancel hl
      · exact .cancel hl
    · exact .nothing _
  | progress now id w amount =>
    refine writes_enter fun held p hp => ?_
    rcases Pool.progress_eq_ok hp with rfl | ⟨l, hl, hledger, -⟩
    · exact .nothing _
    · rw [hledger]
      exact .progress hl
  | complete now id r =>
    refine writes_enter fun held p hp => ?_
    rcases Pool.complete_eq_ok hp with rfl | ⟨l, hl, hledger, -⟩
    · exact .nothing _
    · rw [hledger, Pool.ledger_free]
      exact .complete hl
  | satisfy now id artifacts =>
    simp only [after, Pool.satisfy]
    split
    · exact .nothing _
    · rename_i l hl
      exact .satisfy hl
  | register now info =>
    refine writes_enter fun worker p hp => ?_
    obtain ⟨-, -, hledger, -⟩ := Pool.register_eq_ok hp
    rw [hledger]
    exact .nothing _
  | heartbeat now w usage =>
    refine writes_enter fun u p hp => ?_
    obtain ⟨-, -, -, hledger, -⟩ := Pool.heartbeat_eq_ok (eq_ok_of_map hp)
    rw [hledger]
    exact .nothing _
  | pass now =>
    obtain ⟨-, backlog, heq⟩ := Pool.pass_eq h.pool now
    simp only [after]
    rw [heq]
    exact .pass backlog (fun x hx => Pool.of_mem_placements hx) c.pool.nodup_placements
  | delivered now place =>
    simp only [after]
    split
    · rename_i a _
      simp only [Pool.delivered]
      split
      · exact .nothing _
      · rename_i l hl
        exact .delivered hl
    · exact .nothing _
  | undelivered place =>
    simp only [after]
    split
    · rename_i a _
      simp only [Pool.undelivered]
      split
      · exact .nothing _
      · rename_i l hl
        rw [Pool.ledger_free]
        exact .undelivered hl
    · exact .nothing _
  | scan now judged =>
    obtain ⟨roster, heq, -⟩ := c.pool.scan_eq now judged
    simp only [after]
    rw [heq, (Pool.tables_announceScan _ _ _).1]
    exact .scan (c.pool.overdue judged)
  | restart now config caching => exact .restart
  | wake | takeWakeUp | takeSaveRequest => exact .nothing _

end Course

end BuildPool
