import BuildPool.Proofs.Roster.Slots

/-!
# Reachable rosters

What can be asked of a roster, and the rosters that any number of such requests lead to, from an
empty one or from records. A request that is refused leaves the roster as it is.
-/

namespace BuildPool

open BuildPool.Time

namespace Roster

inductive Op
  | register (info : WorkerInfo) (now : Instant)
  | heartbeat (id : WorkerId) (usage : Usage) (now : Instant)
  | reserve (id : WorkerId) (b : BuildId)
  | release (id : WorkerId) (b : BuildId)
  | disconnect (id : WorkerId)

/-- The roster of an answer, or the one before if there is no answer. -/
def orElse {α : Type} (r : Roster) (next : α → Roster) : Except Refusal α → Roster
  | .ok a => next a
  | .error _ => r

def after (r : Roster) : Op → Roster
  | .register info now => r.orElse Prod.snd (r.register info now)
  | .heartbeat id usage now => r.orElse Prod.snd (r.heartbeat id usage now)
  | .reserve id b => r.orElse (fun r => r) (r.reserve id b)
  | .release id b => r.orElse (fun r => r) (r.release id b)
  | .disconnect id => r.orElse Prod.snd (r.disconnect id)

inductive Reachable : Roster → Prop
  | empty : Reachable Roster.empty
  | ofRecords (workers : List Worker) : Reachable (Roster.ofRecords workers)
  | after {r : Roster} (op : Op) (h : Reachable r) : Reachable (r.after op)

theorem orElse_induction {α : Type} {r : Roster} {next : α → Roster} {answer : Except Refusal α}
    {P : Roster → Prop} (same : P r) (ok : ∀ a, answer = .ok a → P (next a)) :
    P (r.orElse next answer) := by
  cases h : answer with
  | error e => exact same
  | ok a => exact ok a h

theorem sound_empty : Roster.empty.Sound := by
  intro id w h
  cases h

theorem sound_reserve {r r' : Roster} {id : WorkerId} {b : BuildId} (hr : r.Sound)
    (h : r.reserve id b = .ok r') : r'.Sound := by
  obtain ⟨w, -, hfree, rfl⟩ := reserve_eq_ok h
  exact sound_put hr (Worker.sound_take hfree b)

theorem sound_disconnect {r r' : Roster} {id : WorkerId} {held : List BuildId} (hr : r.Sound)
    (h : r.disconnect id = .ok (held, r')) : r'.Sound := by
  obtain ⟨w, -, -, rfl⟩ := disconnect_eq_ok h
  exact sound_put hr (Worker.sound_disconnect w)

theorem sound_after {r : Roster} (hr : r.Sound) (op : Op) : (r.after op).Sound := by
  cases op with
  | register info now => exact orElse_induction hr fun _ h => sound_register hr h
  | heartbeat id usage now => exact orElse_induction hr fun _ h => sound_heartbeat hr h
  | reserve id b => exact orElse_induction hr fun _ h => sound_reserve hr h
  | release id b => exact orElse_induction hr fun _ h => sound_release hr h
  | disconnect id => exact orElse_induction hr fun _ h => sound_disconnect hr h

/-- No request overfills a worker, leaves builds with an offline one, or lets a status go stale. -/
theorem Reachable.sound {r : Roster} (h : r.Reachable) : r.Sound := by
  induction h with
  | empty => exact sound_empty
  | ofRecords workers => exact sound_ofRecords workers
  | after op _ ih => exact sound_after ih op

end Roster

end BuildPool
