import BuildPool.Proofs.Ledger.Records
import BuildPool.Proofs.Steps

/-!
# The ledger step by step

The operations of the ledger as they write its records, its backlog and its figures one after the
other. None of them writes anything before it knows that it will be done.
-/

namespace BuildPool

open BuildPool.Time BuildPool.Number

namespace Ledger

theorem put_put (l : Ledger) {b b' : Build} (h : b.id = b'.id) :
    (l.put b).put b' = l.put b' := by
  have hkey : b.key = b'.key := congrArg BuildId.text h
  unfold put
  rw [Catalog.insert_insert _ hkey]

namespace InPlace

/-! ## Submission -/

def takeSequence : Steps Refusal Ledger Nat := do
  let l ← get
  Steps.write fun l => { l with nextSequence := l.nextSequence + 1 }
  return l.nextSequence

/-- Queues a new build and counts it. -/
def enter (new : Build) : Steps Refusal Ledger Build := do
  Steps.write (·.enqueue new)
  Steps.write fun l => { l with counters.submitted := l.counters.submitted + 1 }
  match (← get).find? new.id with
  | some old => return old
  | none =>
    Steps.write (·.put new)
    return new

/-! ## Assignment -/

def assign (id : BuildId) (w : WorkerId) (now : Instant) : Steps Refusal Ledger Build := do
  let b ← Steps.look (·.require id)
  if b.status = .queued then
    Steps.write (·.put (b.assignTo w now))
    return b.assignTo w now
  else throw (.invalidTransition b.status .assigned)

/-- Works on a build if it is there and suits. -/
def ifSuits (id : BuildId) (suits : Build → Prop) [DecidablePred suits]
    (x : Build → Steps Refusal Ledger Unit) : Steps Refusal Ledger Bool := do
  match (← get).find? id with
  | some b =>
    if suits b then
      x b
      return true
    else return false
  | none => return false

def acknowledge (id : BuildId) (w : WorkerId) (attempt : Nat) : Steps Refusal Ledger Bool :=
  ifSuits id (·.awaits w attempt) fun b => Steps.write (·.put b.start)

def rollback (id : BuildId) (w : WorkerId) (attempt : Nat) : Steps Refusal Ledger Bool :=
  ifSuits id (·.awaits w attempt) fun b => do
    Steps.write (·.put b.requeue)
    Steps.write (·.enqueue b.requeue)

/-! ## Reports -/

def progress (id : BuildId) (w : WorkerId) (amount : Float) : Steps Refusal Ledger Bool := do
  let b ← Steps.look (·.require id)
  if b.heldBy w then
    let b := if b.status = .assigned then b.start else b
    Steps.write (·.put b)
    Steps.write (·.put { b with progress := clampUnit amount })
    return true
  else return false

/-- Counts a build that ended, and enters it in the history. -/
def record (b : Build) : Steps Refusal Ledger Unit := do
  Steps.write fun l => { l with counters := l.counters.countEnd b.status }
  Steps.write fun l => { l with history := l.history ++ [b.id] }
  Steps.write evict

def complete (id : BuildId) (r : Report) (now : Instant) : Steps Refusal Ledger Bool := do
  let b ← Steps.look (·.require id)
  if b.heldBy r.worker then
    let b := b.finish (verdict r).1 (verdict r).2 now
    Steps.write (·.put b)
    record b
    return true
  else return false

/-! ## Loss, cancellation, cache -/

def lose (id : BuildId) (w : WorkerId) (now : Instant) : Steps Refusal Ledger Loss := do
  let l ← get
  match l.find? id with
  | some b =>
    if b.heldBy w then
      Steps.write (·.put { b with retries := b.retries + 1 })
      if l.maxRetries < b.retries + 1 then
        Steps.write (·.put { b with retries := l.maxRetries })
        let b := { b with retries := l.maxRetries }.finish .failed (.failure retriesExhausted) now
        Steps.write (·.put b)
        record b
        return .failed
      else
        let b := { b with retries := b.retries + 1 }.requeue
        Steps.write (·.put b)
        Steps.write (·.enqueue b)
        Steps.write fun l => { l with counters.retried := l.counters.retried + 1 }
        return .requeued b.retries
    else return .notHeld
  | none => return .notHeld

def cancel (id : BuildId) (now : Instant) : Steps Refusal Ledger Cancellation := do
  let b ← Steps.look (·.require id)
  if b.isTerminal then return ⟨b.status, none, false⟩
  else
    let ended := b.finish .cancelled (.failure cancelledReason) now
    Steps.write (·.put ended)
    record ended
    return ⟨.cancelled, b.worker, true⟩

def satisfy (id : BuildId) (artifacts : List String) (now : Instant) :
    Steps Refusal Ledger Bool :=
  ifSuits id (·.status = .queued) fun b => do
    let b := b.finish .completed { success := true, artifacts } now
    Steps.write (·.put b)
    Steps.write fun l => { l with counters.cacheHits := l.counters.cacheHits + 1 }
    record b

/-! ## What they come to -/

theorem exec_takeSequence (l : Ledger) :
    takeSequence.exec l =
      (.ok l.nextSequence, { l with nextSequence := l.nextSequence + 1 }) := rfl

theorem exec_enter (l : Ledger) (new : Build) :
    (enter new).exec l =
      let counted := { l.enqueue new with counters.submitted := l.counters.submitted + 1 }
      match l.find? new.id with
      | some old => (.ok old, counted)
      | none => (.ok new, counted.put new) := by
  unfold enter
  simp only [Steps.exec_bind, Steps.exec_write, Steps.exec_get]
  change (match l.find? new.id with
    | some old => _
    | none => _ : Steps Refusal Ledger Build).exec _ = _
  cases l.find? new.id with
  | some old => rfl
  | none => rfl

theorem does_assign (id : BuildId) (w : WorkerId) (now : Instant) :
    (assign id w now).Does (·.assign id w now) := by
  apply Steps.Does.look
  intro b l _
  by_cases hq : b.status = .queued
  · rw [if_pos hq, if_pos hq]
    rfl
  · rw [if_neg hq, if_neg hq]
    rfl

/-- Whether something was done, and the ledger after it. -/
def done (l : Ledger) : Option Ledger → Bool × Ledger
  | some l' => (true, l')
  | none => (false, l)

theorem does_ifSuits {id : BuildId} {suits : Build → Prop} [DecidablePred suits]
    {x : Build → Steps Refusal Ledger Unit} {after : Ledger → Build → Ledger}
    {after? : Ledger → Option Ledger} (hx : ∀ l b, (x b).exec l = (.ok (), after l b))
    (hafter : ∀ l, after? l = match l.find? id with
      | some b => if suits b then some (after l b) else none
      | none => none) :
    (ifSuits id suits x).Does fun l => .ok (done l (after? l)) := by
  apply Steps.Does.get
  intro l
  rw [hafter l]
  cases l.find? id with
  | none => rfl
  | some b =>
    dsimp only
    by_cases hsuits : suits b
    · rw [if_pos hsuits, if_pos hsuits]
      exact Steps.exec_bind_ok (hx l b)
    · rw [if_neg hsuits, if_neg hsuits]
      rfl

theorem does_acknowledge (id : BuildId) (w : WorkerId) (attempt : Nat) :
    (acknowledge id w attempt).Does fun l => .ok (done l (l.acknowledge? id w attempt)) :=
  does_ifSuits (fun _ _ => rfl) fun _ => rfl

theorem does_rollback (id : BuildId) (w : WorkerId) (attempt : Nat) :
    (rollback id w attempt).Does fun l => .ok (done l (l.rollback? id w attempt)) :=
  does_ifSuits (fun _ _ => rfl) fun _ => rfl

theorem does_satisfy (id : BuildId) (artifacts : List String) (now : Instant) :
    (satisfy id artifacts now).Does fun l => .ok (done l (l.satisfy? id artifacts now)) :=
  does_ifSuits (fun _ _ => rfl) fun _ => rfl

theorem does_progress (id : BuildId) (w : WorkerId) (amount : Float) :
    (progress id w amount).Does fun l => (l.progress id w amount).map (done l) := by
  apply Steps.Does.look_map
  intro b l _
  by_cases hheld : b.heldBy w = true
  · have hid : (if b.status = .assigned then b.start else b).id = (b.advance amount).id := by
      rw [b.advance_id]
      split <;> rfl
    rw [if_pos hheld, if_pos hheld]
    exact congrArg (fun l' => (Except.ok true, l')) (put_put l hid)
  · rw [if_neg hheld, if_neg hheld]
    rfl

theorem does_complete (id : BuildId) (r : Report) (now : Instant) :
    (complete id r now).Does fun l => (l.complete id r now).map (done l) := by
  apply Steps.Does.look_map
  intro b l _
  by_cases hheld : b.heldBy r.worker = true
  · rw [if_pos hheld, if_pos hheld]
    rfl
  · rw [if_neg hheld, if_neg hheld]
    rfl

theorem does_lose (id : BuildId) (w : WorkerId) (now : Instant) :
    (lose id w now).Does fun l => .ok (l.lose id w now) := by
  apply Steps.Does.get
  intro l
  unfold Ledger.lose
  cases l.find? id with
  | none => rfl
  | some b =>
    dsimp only
    split
    · rw [Steps.exec_bind, Steps.exec_write]
      dsimp only
      split
      · let ended :=
          { b with retries := l.maxRetries }.finish .failed (.failure retriesExhausted) now
        have hput : ((l.put { b with retries := b.retries + 1 }).put
            { b with retries := l.maxRetries }).put ended = l.put ended :=
          (put_put _ (by rfl)).trans (put_put l (by rfl))
        exact congrArg (fun l' : Ledger => (Except.ok Loss.failed, evict
          { l' with
            counters := l'.counters.countEnd .failed
            history := l'.history ++ [b.id] })) hput
      · let back := { b with retries := b.retries + 1 }.requeue
        have hput : (l.put { b with retries := b.retries + 1 }).put back = l.put back :=
          put_put l rfl
        exact congrArg (fun l' : Ledger => (Except.ok (Loss.requeued (b.retries + 1)),
          { l'.enqueue back with counters.retried := l'.counters.retried + 1 })) hput
    · rfl

theorem does_cancel (id : BuildId) (now : Instant) :
    (cancel id now).Does (·.cancel id now) := by
  apply Steps.Does.look
  intro b l _
  by_cases hend : b.isTerminal = true
  · rw [if_pos hend, if_pos hend]
    rfl
  · rw [if_neg hend, if_neg hend]
    rfl

end InPlace

end Ledger

end BuildPool
