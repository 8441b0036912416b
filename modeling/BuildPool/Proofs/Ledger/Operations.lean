import BuildPool.Ledger.Basic

/-!
# What each operation of a ledger does

One statement for each operation: which build it found, what it asked of it, and the ledger after
it.
-/

namespace BuildPool

open BuildPool.Time BuildPool.Number

namespace Build

theorem heldBy_iff {b : Build} {w : WorkerId} :
    b.heldBy w = true ↔ b.status.holdsWorker = true ∧ b.worker = some w := by
  simp [heldBy]

theorem awaits_iff {b : Build} {w : WorkerId} {attempt : Nat} :
    b.awaits w attempt = true ↔
      b.status = .assigned ∧ b.attempt = attempt ∧ b.heldBy w = true := by
  simp [awaits, and_assoc]

theorem isTerminal_eq_false_of_holdsWorker {b : Build} (h : b.status.holdsWorker = true) :
    b.isTerminal = false := by
  cases hend : b.isTerminal with
  | false => rfl
  | true => rw [BuildStatus.holdsWorker_eq_false_of_isTerminal hend] at h; cases h

theorem isTerminal_eq_false_of_heldBy {b : Build} {w : WorkerId} (h : b.heldBy w = true) :
    b.isTerminal = false :=
  isTerminal_eq_false_of_holdsWorker (heldBy_iff.1 h).1

theorem isTerminal_eq_false_of_queued {b : Build} (h : b.status = .queued) :
    b.isTerminal = false := by
  rw [isTerminal, h]
  rfl

theorem ne_queued_of_isTerminal {b : Build} (h : b.isTerminal = true) : b.status ≠ .queued := by
  intro hq
  rw [isTerminal_eq_false_of_queued hq] at h
  cases h

theorem not_heldBy_of_queued {b : Build} (h : b.status = .queued) (w : WorkerId) :
    ¬ b.heldBy w = true := by
  rw [heldBy_iff, h]
  rintro ⟨hw, -⟩
  cases hw

/-- A build whose worker shows progress: it runs, if it did not before. -/
def advance (b : Build) (amount : Float) : Build :=
  { (if b.status = .assigned then b.start else b) with progress := clampUnit amount }

theorem advance_submission (b : Build) (amount : Float) :
    (b.advance amount).submission = b.submission := by
  unfold advance
  split <;> rfl

theorem advance_id (b : Build) (amount : Float) : (b.advance amount).id = b.id :=
  congrArg Prod.fst (b.advance_submission amount)

theorem advance_task (b : Build) (amount : Float) : (b.advance amount).task = b.task :=
  congrArg (fun s => s.2.2.1) (b.advance_submission amount)

theorem advance_worker (b : Build) (amount : Float) : (b.advance amount).worker = b.worker := by
  unfold advance
  split <;> rfl

/-- A build that advanced has been started. -/
theorem advance_ne_assigned (b : Build) (amount : Float) :
    (b.advance amount).status ≠ .assigned := by
  unfold advance
  split
  · exact fun h => by cases h
  · rename_i hne
    exact hne

theorem advance_advance (b : Build) (amount : Float) :
    (b.advance amount).advance amount = b.advance amount := by
  have hne := b.advance_ne_assigned amount
  rw [advance, if_neg hne]
  rfl

theorem advance_holdsWorker {b : Build} (h : b.status.holdsWorker = true) (amount : Float) :
    (b.advance amount).status.holdsWorker = true := by
  unfold advance
  split
  · rfl
  · exact h

end Build

namespace Ledger

variable {l l' : Ledger} {id : BuildId} {w : WorkerId} {now : Instant}

theorem require_eq_ok {b : Build} (h : l.require id = .ok b) : l.find? id = some b := by
  unfold require at h
  split at h
  · rename_i hf
    cases h
    exact hf
  · cases h

theorem submit_eq_ok {r : Request} {b : Build} (hnew : l.find? id = none)
    (h : l.submit r id now = .ok (b, l')) :
    r.validate = .ok () ∧ b = .ofRequest r id l.nextSequence now ∧
      l' = { (l.put b).enqueue b with
        nextSequence := l.nextSequence + 1
        counters := { l.counters with submitted := l.counters.submitted + 1 } } := by
  obtain ⟨_, hvalid, h⟩ := Refusal.of_bind_eq_ok h
  simp only [hnew] at h
  cases h
  exact ⟨hvalid, rfl, rfl⟩

theorem assign_eq_ok {b' : Build} (h : l.assign id w now = .ok (b', l')) :
    ∃ b, l.find? id = some b ∧ b.status = .queued ∧ b' = b.assignTo w now ∧ l' = l.put b' := by
  obtain ⟨b, hb, h⟩ := Refusal.of_bind_eq_ok h
  refine ⟨b, require_eq_ok hb, ?_⟩
  split at h
  · rename_i hq
    cases h
    exact ⟨hq, rfl, rfl⟩
  · cases h

theorem acknowledge?_eq_some {attempt : Nat} (h : l.acknowledge? id w attempt = some l') :
    ∃ b, l.find? id = some b ∧ b.awaits w attempt = true ∧ l' = l.put b.start := by
  unfold acknowledge? at h
  split at h
  · rename_i b hb
    split at h
    · rename_i ha
      cases h
      exact ⟨b, hb, ha, rfl⟩
    · cases h
  · cases h

theorem rollback?_eq_some {attempt : Nat} (h : l.rollback? id w attempt = some l') :
    ∃ b, l.find? id = some b ∧ b.awaits w attempt = true ∧
      l' = (l.put b.requeue).enqueue b.requeue := by
  unfold rollback? at h
  split at h
  · rename_i b hb
    split at h
    · rename_i ha
      cases h
      exact ⟨b, hb, ha, rfl⟩
    · cases h
  · cases h

theorem progress_eq_ok {amount : Float} (h : l.progress id w amount = .ok (some l')) :
    ∃ b, l.find? id = some b ∧ b.heldBy w = true ∧ l' = l.put (b.advance amount) := by
  obtain ⟨b, hb, h⟩ := Refusal.of_bind_eq_ok h
  refine ⟨b, require_eq_ok hb, ?_⟩
  split at h
  · rename_i hheld
    cases h
    exact ⟨hheld, rfl⟩
  · cases h

theorem complete_eq_ok {r : Report} (h : l.complete id r now = .ok (some l')) :
    ∃ b, l.find? id = some b ∧ b.heldBy r.worker = true ∧
      l' = l.archive (b.finish (verdict r).1 (verdict r).2 now) := by
  obtain ⟨b, hb, h⟩ := Refusal.of_bind_eq_ok h
  refine ⟨b, require_eq_ok hb, ?_⟩
  split at h
  · rename_i hheld
    cases h
    exact ⟨hheld, rfl⟩
  · cases h

theorem isTerminal_verdict (r : Report) : (verdict r).1.isTerminal = true := by
  unfold verdict
  split <;> rfl

/-- What becomes of a build whose worker is lost. -/
theorem lose_cases (l : Ledger) (id : BuildId) (w : WorkerId) (now : Instant) :
    ((∀ b, l.find? id = some b → b.heldBy w = false) ∧ l.lose id w now = (.notHeld, l)) ∨
    ∃ b, l.find? id = some b ∧ b.heldBy w = true ∧
      ((l.maxRetries < b.retries + 1 ∧ l.lose id w now = (.failed, l.archive
        ({ b with retries := l.maxRetries }.finish .failed (.failure retriesExhausted) now))) ∨
      (b.retries + 1 ≤ l.maxRetries ∧ l.lose id w now = (.requeued (b.retries + 1),
        { (l.put { b with retries := b.retries + 1 }.requeue).enqueue
            { b with retries := b.retries + 1 }.requeue with
          counters := { l.counters with retried := l.counters.retried + 1 } }))) := by
  cases hb : l.find? id with
  | none =>
    refine .inl ⟨?_, ?_⟩
    · intro b hb
      cases hb
    · simp only [lose, hb]
  | some b =>
    cases hheld : b.heldBy w with
    | false =>
      refine .inl ⟨?_, ?_⟩
      · intro x hx
        cases hx
        exact hheld
      · simp [lose, hb, hheld]
    | true =>
      refine .inr ⟨b, rfl, hheld, ?_⟩
      by_cases hout : l.maxRetries < b.retries + 1
      · refine .inl ⟨hout, ?_⟩
        simp [lose, hb, hheld, hout]
      · refine .inr ⟨Nat.le_of_not_lt hout, ?_⟩
        simp only [lose, hb, hheld, if_true, if_neg hout]
        rfl

theorem cancel_eq_ok {answer : Cancellation} (h : l.cancel id now = .ok (answer, l')) :
    ∃ b, l.find? id = some b ∧
      ((b.isTerminal = true ∧ answer = ⟨b.status, none, false⟩ ∧ l' = l) ∨
      (b.isTerminal = false ∧ answer = ⟨.cancelled, b.worker, true⟩ ∧
        l' = l.archive (b.finish .cancelled (.failure cancelledReason) now))) := by
  obtain ⟨b, hb, h⟩ := Refusal.of_bind_eq_ok h
  refine ⟨b, require_eq_ok hb, ?_⟩
  split at h
  · rename_i hend
    cases h
    exact .inl ⟨hend, rfl, rfl⟩
  · rename_i hopen
    cases h
    exact .inr ⟨by simpa using hopen, rfl, rfl⟩

theorem satisfy?_eq_some {artifacts : List String} (h : l.satisfy? id artifacts now = some l') :
    ∃ b, l.find? id = some b ∧ b.status = .queued ∧
      l' = { l with counters := { l.counters with cacheHits := l.counters.cacheHits + 1 } }.archive
        (b.finish .completed { success := true, artifacts } now) := by
  unfold satisfy? at h
  split at h
  · rename_i b hb
    split at h
    · rename_i hq
      cases h
      exact ⟨b, hb, hq, rfl⟩
    · cases h
  · cases h

end Ledger

end BuildPool
