import BuildPool.Proofs.Ledger.Steps
import BuildPool.Proofs.Pool.Sound
import BuildPool.Proofs.Roster.Steps

/-!
# The pool step by step

The operations of the pool as they write ledger, roster and the news one after the other. Once the
first table is written nothing refuses any more.
-/

namespace BuildPool

open BuildPool.Time

namespace Pool

variable {ε α : Type}

abbrev onLedger (x : Steps ε Ledger α) : Steps ε Pool α :=
  x.on Pool.ledger fun ledger p => { p with ledger }

abbrev onRoster (x : Steps ε Roster α) : Steps ε Pool α :=
  x.on Pool.roster fun roster p => { p with roster }

namespace InPlace

/-! ## Clients -/

/-- The next id of the supply. -/
def takeId : Steps Refusal Pool BuildId := do
  Steps.write fun p => { p with issued := p.issued + 1 }
  return BuildId.nth (← get).issued

def askCache (b : Build) : Steps Refusal Pool Unit := do
  if b.cacheEnabled && (← get).caching then Steps.write (·.start (.lookUp b.id b.cacheKey))

/-- The request is looked at before a number and an id are taken for it. -/
def submit (now : Instant) (r : Request) : Steps Refusal Pool Build := do
  Steps.look fun _ => r.validate
  let sequence ← onLedger Ledger.InPlace.takeSequence
  let id ← takeId
  let b ← onLedger (Ledger.InPlace.enter (.ofRequest r id sequence now))
  askCache b
  Steps.write wake
  return b

def cancel (now : Instant) (id : BuildId) : Steps Refusal Pool Cancellation := do
  let answer ← onLedger (Ledger.InPlace.cancel id now)
  match answer.released with
  | some w => Steps.write (·.free w id)
  | none => pure ()
  if answer.changed then Steps.write (·.announceCancellation now id answer.released)
  return answer

/-! ## Reports -/

def progress (now : Instant) (id : BuildId) (w : WorkerId) (amount : Float) :
    Steps Refusal Pool Bool := do
  if amount.isFinite then
    let wasAssigned := ((← get).ledger.find? id).any (·.status == .assigned)
    let accepted ← onLedger (Ledger.InPlace.progress id w amount)
    match accepted && wasAssigned, (← get).ledger.find? id with
    | true, some b => Steps.write (·.publish (.buildStarted id w b.task now))
    | _, _ => pure ()
    return accepted
  else throw (.invalidRequest "progress must be a number")

def complete (now : Instant) (id : BuildId) (r : Report) : Steps Refusal Pool Bool := do
  let accepted ← onLedger (Ledger.InPlace.complete id r now)
  if accepted then
    Steps.write (·.free r.worker id)
    match (← get).ledger.find? id with
    | none => return false
    | some b =>
      Steps.write (·.announceCompletion now b)
      return true
  else return false

/-! ## Workers -/

def register (now : Instant) (info : WorkerInfo) : Steps Refusal Pool Worker := do
  let w ← onRoster (Roster.InPlace.register info now)
  Steps.write (·.announceWorker now w.id w.status)
  return w

def heartbeat (now : Instant) (id : WorkerId) (usage : Usage) : Steps Refusal Pool Unit := do
  let revived ← onRoster (Roster.InPlace.heartbeat id usage now)
  match revived, (← get).roster.find? id with
  | true, some w => Steps.write (·.announceWorker now id w.status)
  | _, _ => return

/-! ## What they come to -/

theorem exec_askCache (b : Build) (p : Pool) :
    (askCache b).exec p =
      (.ok (), if b.cacheEnabled && p.caching then p.start (.lookUp b.id b.cacheKey) else p) := by
  unfold askCache
  rw [Steps.exec_bind, Steps.exec_get]
  dsimp only
  split
  · rfl
  · rfl

theorem exec_takeId (p : Pool) :
    takeId.exec p = (.ok (BuildId.nth (p.issued + 1)), { p with issued := p.issued + 1 }) := rfl

theorem does_submit (now : Instant) (r : Request) : (submit now r).Does (·.submit now r) := by
  intro p
  let new := Build.ofRequest r (BuildId.nth (p.issued + 1)) p.ledger.nextSequence now
  change (submit now r).exec p = Steps.settle p (p.submitAs now r new.id)
  unfold submit submitAs Ledger.submit
  rw [Steps.exec_bind, Steps.exec_look]
  cases r.validate with
  | error e => rfl
  | ok u =>
    let taken : Ledger := { p.ledger with nextSequence := p.ledger.nextSequence + 1 }
    have hfind : taken.find? new.id = p.ledger.find? new.id := rfl
    dsimp only
    rw [Steps.exec_bind_ok (Steps.exec_on_ok (Ledger.InPlace.exec_takeSequence p.ledger)),
      Steps.exec_bind_ok (exec_takeId _), Steps.exec_bind, Steps.exec_on, Ledger.InPlace.exec_enter]
    dsimp only
    cases h : p.ledger.find? new.id with
    | some old =>
      rw [hfind.trans h]
      exact Steps.exec_bind_ok (exec_askCache old _)
    | none =>
      rw [hfind.trans h]
      exact Steps.exec_bind_ok (exec_askCache new _)

theorem does_cancel (now : Instant) (id : BuildId) : (cancel now id).Does (·.cancel now id) := by
  intro p
  have hdoes := Steps.settle_self (Ledger.InPlace.does_cancel id now p.ledger)
  apply Steps.settle_bind (Steps.settle_on rfl hdoes)
  rintro ⟨answer, l⟩ hl
  obtain ⟨b, hb, ⟨-, rfl, rfl⟩ | ⟨-, rfl, rfl⟩⟩ := Ledger.cancel_eq_ok hl
  · rfl
  · cases b.worker with
    | none => rfl
    | some w => rfl

theorem does_progress (now : Instant) (id : BuildId) (w : WorkerId) (amount : Float) :
    (progress now id w amount).Does (·.progress now id w amount) := by
  intro p
  change _ = Steps.settle p (p.progress now id w amount)
  unfold progress Pool.progress
  by_cases hfinite : amount.isFinite = true
  · rw [if_pos hfinite, if_pos hfinite, Steps.exec_bind_ok (Steps.exec_get p)]
    have hdoes := Ledger.InPlace.does_progress id w amount p.ledger
    apply Steps.settle_bind (Steps.settle_on rfl hdoes)
    intro answer _
    cases answer with
    | none => rfl
    | some l =>
      cases (p.ledger.find? id).any (·.status == .assigned) with
      | false => rfl
      | true =>
        dsimp only [Ledger.InPlace.done]
        rw [Steps.exec_bind_ok (Steps.exec_get _)]
        dsimp only
        cases l.find? id with
        | none => rfl
        | some b => rfl
  · rw [if_neg hfinite, if_neg hfinite]
    rfl

theorem does_complete (now : Instant) (id : BuildId) (r : Report) :
    (complete now id r).Does (·.complete now id r) := by
  intro p
  have hdoes := Ledger.InPlace.does_complete id r now p.ledger
  apply Steps.settle_bind (Steps.settle_on rfl hdoes)
  intro answer _
  cases answer with
  | none => rfl
  | some l =>
    have hledger : (Pool.free { p with ledger := l } r.worker id).ledger = l := ledger_free _ _ _
    change (match (Pool.free { p with ledger := l } r.worker id).ledger.find? id with
        | none => (pure false : Steps Refusal Pool Bool)
        | some b => do Steps.write (·.announceCompletion now b); return true).exec _ = _
    rw [hledger]
    dsimp only
    cases l.find? id with
    | none => rfl
    | some b => rfl

theorem does_register (now : Instant) (info : WorkerInfo) :
    (register now info).Does (·.register now info) := by
  intro p
  have hdoes := Steps.settle_self (Roster.InPlace.does_register info now p.roster)
  apply Steps.settle_bind (Steps.settle_on rfl hdoes)
  intro w _
  rfl

theorem does_heartbeat (now : Instant) (id : WorkerId) (usage : Usage) :
    (heartbeat now id usage).Does fun p => (p.heartbeat now id usage).map ((), ·) := by
  intro p
  change _ = Steps.settle p ((p.heartbeat now id usage).map ((), ·))
  unfold heartbeat Pool.heartbeat
  have hmap (r : Except Refusal (Bool × Roster)) (g : Bool × Roster → Except Refusal Pool) :
      (r >>= g).map ((), ·) = r >>= fun c => (g c).map ((), ·) := by
    cases r with
    | error e => rfl
    | ok c => rfl
  rw [hmap]
  have hdoes := Steps.settle_self (Roster.InPlace.does_heartbeat id usage now p.roster)
  apply Steps.settle_bind (Steps.settle_on rfl hdoes)
  rintro ⟨revived, r⟩ _
  cases revived with
  | false => rfl
  | true =>
    rw [Steps.exec_bind_ok (Steps.exec_get _)]
    dsimp only
    cases r.find? id with
    | none => rfl
    | some w => rfl

end InPlace

end Pool

end BuildPool
