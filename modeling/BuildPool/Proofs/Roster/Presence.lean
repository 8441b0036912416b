import BuildPool.Proofs.Roster.Allotment

/-!
# Presence

Whether a worker is known, and online. Taking slots and freeing them leaves that alone: workers come
online by a registration or a heartbeat, and go offline in a scan.
-/

namespace BuildPool

open BuildPool.Time

namespace Worker

theorem beat_isOnline (w : Worker) (usage : Usage) (now : Instant) :
    (w.beat usage now).isOnline = true := by
  unfold beat
  split
  · rename_i hon
    exact hon
  · rw [refresh_isOnline]
    rfl

theorem beat_id (w : Worker) (usage : Usage) (now : Instant) : (w.beat usage now).id = w.id := by
  rw [id, beat_info, ← id]

/-- A heartbeat that was noted before says nothing new. -/
theorem beat_of_noted {w : Worker} {usage : Usage} {now : Instant} (hon : w.isOnline = true)
    (hlast : w.lastHeartbeat = now) (husage : w.usage = usage) : w.beat usage now = w := by
  subst hlast husage
  exact if_pos hon

theorem beat_noted (w : Worker) (usage : Usage) (now : Instant) :
    (w.beat usage now).lastHeartbeat = now ∧ (w.beat usage now).usage = usage := by
  unfold beat refresh
  split
  · exact ⟨rfl, rfl⟩
  · split
    · exact ⟨rfl, rfl⟩
    · exact ⟨rfl, rfl⟩

theorem beat_beat (w : Worker) (usage : Usage) (now : Instant) :
    (w.beat usage now).beat usage now = w.beat usage now :=
  beat_of_noted (w.beat_isOnline usage now) (w.beat_noted usage now).1 (w.beat_noted usage now).2

end Worker

namespace Roster

variable {r r' : Roster} {w x : WorkerId} {worker worker' : Worker}

/-- Whether the worker is online, if it is known. -/
def presence (r : Roster) (w : WorkerId) : Option Bool := (r.find? w).map Worker.isOnline

theorem presence_put (r : Roster) (worker : Worker) (x : WorkerId) :
    (r.put worker).presence x =
      if x = worker.id then some worker.isOnline else r.presence x := by
  unfold presence
  rw [find?_put]
  split
  · rfl
  · rfl

theorem presence_put_of_eq (h : r.find? w = some worker) (hinfo : worker'.info = worker.info)
    (hon : worker'.isOnline = worker.isOnline) (x : WorkerId) :
    (r.put worker').presence x = r.presence x := by
  have hid : worker'.id = w := by rw [Worker.id, hinfo, ← Worker.id, id_of_find? h]
  rw [presence_put, hid]
  split
  · rename_i hx
    rw [hx, hon, presence, h, Option.map_some]
  · rfl

/-! ## Slots -/

theorem presence_release {b : BuildId} (h : r.release w b = .ok r') (x : WorkerId) :
    r'.presence x = r.presence x := by
  obtain ⟨worker, hworker, rfl⟩ := release_eq_ok h
  exact presence_put_of_eq hworker (Worker.release_info worker b) (Worker.refresh_isOnline _) x

theorem presence_allot (r : Roster) (q : List Build) (x : WorkerId) :
    (r.allot q).2.presence x = r.presence x := by
  induction r, q using allot_induction with
  | nil r => rfl
  | skip r b rest hs ih => rw [allot_skip hs]; exact ih
  | place r b rest w hs ih =>
    obtain ⟨hw, -, -⟩ := select_eq_some hs
    rw [allot_place hs]
    exact ih.trans (presence_put_of_eq hw (Worker.take_info w b.id) (Worker.refresh_isOnline _) x)

/-! ## Coming and going -/

theorem presence_register {info : WorkerInfo} {now : Instant}
    (h : r.register info now = .ok (worker, r')) (x : WorkerId) :
    r'.presence x = if x = worker.id then some true else r.presence x := by
  obtain ⟨-, -, rfl, rfl⟩ := register_eq_ok h
  exact presence_put r _ x

theorem find?_of_heartbeat {usage : Usage} {now : Instant} {revived : Bool}
    (h : r.heartbeat w usage now = .ok (revived, r')) :
    ∃ worker : Worker, r'.find? w = some (worker.beat usage now) := by
  obtain ⟨worker, hworker, -, rfl⟩ := heartbeat_eq_ok h
  refine ⟨worker, ?_⟩
  rw [find?_put, Worker.beat_id, id_of_find? hworker, if_pos rfl]

/-- A worker is online after its heartbeat. -/
theorem presence_heartbeat {usage : Usage} {now : Instant} {revived : Bool}
    (h : r.heartbeat w usage now = .ok (revived, r')) (x : WorkerId) :
    r'.presence x = if x = w then some true else r.presence x := by
  obtain ⟨worker, hworker, -, rfl⟩ := heartbeat_eq_ok h
  rw [presence_put, Worker.beat_id, id_of_find? hworker, Worker.beat_isOnline]

theorem presence_heartbeat_of_online {usage : Usage} {now : Instant}
    (h : r.heartbeat w usage now = .ok (false, r')) (x : WorkerId) :
    r'.presence x = r.presence x := by
  obtain ⟨worker, hworker, hrevived, rfl⟩ := heartbeat_eq_ok h
  have hon : worker.isOnline = true := by simpa using hrevived
  refine presence_put_of_eq hworker (Worker.beat_info worker usage now) ?_ x
  rw [Worker.beat_isOnline, hon]

end Roster

end BuildPool
