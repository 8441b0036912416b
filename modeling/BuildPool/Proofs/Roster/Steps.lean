import BuildPool.Proofs.Roster.Slots
import BuildPool.Proofs.Steps

/-!
# The roster step by step

The operations of the roster as they write the records of its workers one after the other.
-/

namespace BuildPool

open BuildPool.Time

namespace Roster

theorem put_put (r : Roster) {w w' : Worker} (h : w.id = w'.id) :
    (r.put w).put w' = r.put w' :=
  congrArg Roster.mk (r.workers.insert_insert (congrArg WorkerId.text h))

namespace InPlace

def register (info : WorkerInfo) (now : Instant) : Steps Refusal Roster Worker := do
  Steps.look fun _ => info.validate
  if ((← get).find? info.id).isSome then throw (.duplicateWorker info.id)
  else
    Steps.write (·.put (.ofInfo info now))
    return .ofInfo info now

def heartbeat (id : WorkerId) (usage : Usage) (now : Instant) : Steps Refusal Roster Bool := do
  let w ← Steps.look (·.require id)
  let w := { w with lastHeartbeat := now, usage }
  Steps.write (·.put w)
  if w.isOnline then return false
  else
    Steps.write (·.put { w with status := .available }.refresh)
    return true

def reserve (id : WorkerId) (b : BuildId) : Steps Refusal Roster Unit := do
  let w ← Steps.look (·.require id)
  if w.hasFreeSlot then Steps.write (·.put (w.take b))
  else throw (.capacityExceeded id w.info.capacity)

/-! ## What they come to -/

theorem does_register (info : WorkerInfo) (now : Instant) :
    (register info now).Does (·.register info now) := by
  apply Steps.Does.look
  intro _ r _
  rw [Steps.exec_bind, Steps.exec_get]
  dsimp only
  split
  · rfl
  · rfl

theorem does_heartbeat (id : WorkerId) (usage : Usage) (now : Instant) :
    (heartbeat id usage now).Does (·.heartbeat id usage now) := by
  apply Steps.Does.look
  intro w r _
  rw [Steps.exec_bind, Steps.exec_write]
  dsimp only
  split
  · rfl
  · let back : Worker := { w with lastHeartbeat := now, usage, status := .available }
    have hid : { w with lastHeartbeat := now, usage }.id = back.refresh.id :=
      (congrArg WorkerInfo.id back.refresh_info).symm
    exact congrArg (fun r' => (Except.ok true, r')) (put_put r hid)

theorem does_reserve (id : WorkerId) (b : BuildId) :
    (reserve id b).Does fun r => (r.reserve id b).map ((), ·) := by
  apply Steps.Does.look_map
  intro w r _
  split
  · rfl
  · rfl

end InPlace

end Roster

end BuildPool
