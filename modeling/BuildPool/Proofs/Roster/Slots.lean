import BuildPool.Roster

/-!
# Slots

Which builds a worker holds, and how each operation of the roster changes that. A worker is sound
if it holds no more builds than it has slots, none at all while it is offline, and shows the status
that its load asks for.
-/

namespace BuildPool

open BuildPool.Time

/-! ## One worker -/

structure Worker.Sound (w : Worker) : Prop where
  idle : w.isOnline = false → w.active = Catalog.empty
  fits : w.load ≤ w.capacity
  current : w.isOnline = true →
    w.status = if w.capacity ≤ w.load then .busy else .available

namespace Worker

@[simp] theorem refresh_isOnline (w : Worker) : w.refresh.isOnline = w.isOnline := by
  unfold refresh
  split
  · rename_i h
    rw [h]
    unfold isOnline
    split <;> rfl
  · rfl

@[simp] theorem refresh_load (w : Worker) : w.refresh.load = w.load := by
  rw [load, load, refresh_active]

@[simp] theorem refresh_capacity (w : Worker) : w.refresh.capacity = w.capacity := by
  rw [capacity, capacity, refresh_info]

theorem refresh_status {w : Worker} (h : w.isOnline = true) :
    w.refresh.status = if w.capacity ≤ w.load then .busy else .available := by
  rw [refresh, if_pos h]

theorem sound_refresh {w : Worker} (hidle : w.isOnline = false → w.active = Catalog.empty)
    (hfits : w.load ≤ w.capacity) : w.refresh.Sound where
  idle h := by rw [refresh_active]; exact hidle (by rw [← h, refresh_isOnline])
  fits := by rw [refresh_load, refresh_capacity]; exact hfits
  current h := by
    rw [refresh_capacity, refresh_load]
    exact refresh_status (by rw [← h, refresh_isOnline])

theorem sound_ofInfo {info : WorkerInfo} (now : Instant) (h : info.validate = .ok ()) :
    (ofInfo info now).Sound where
  idle h := by simp [ofInfo, isOnline] at h
  fits := by simp [ofInfo, load, Catalog.size, Catalog.empty]
  current _ := by
    have hcap : 0 < info.capacity.toNat := by
      unfold WorkerInfo.validate at h
      split at h
      · cases h
      · split at h
        · cases h
        · split at h
          · cases h
          · rename_i hne
            exact Nat.pos_of_ne_zero fun hz => hne (UInt32.toNat_inj.1 hz)
    have hload : ¬ (ofInfo info now).capacity ≤ (ofInfo info now).load := by
      simp only [ofInfo, capacity, load, Catalog.size, Catalog.empty, List.length_nil]
      omega
    rw [if_neg hload]
    rfl

theorem sound_take {w : Worker} (hfree : w.hasFreeSlot = true) (b : BuildId) :
    (w.take b).Sound := by
  simp only [hasFreeSlot, Bool.and_eq_true, decide_eq_true_eq] at hfree
  have hsize := Catalog.size_insert_le w.active b
  refine sound_refresh (fun hoff => ?_) ?_
  · rw [isOnline] at hoff hfree
    simp [hoff] at hfree
  · simp only [load, capacity] at hfree ⊢
    omega

theorem sound_release {w : Worker} (h : w.Sound) (b : BuildId) : (w.release b).Sound := by
  have hsize := Catalog.size_erase_le w.active b.text
  have hfits := h.fits
  refine sound_refresh (fun hoff => ?_) ?_
  · rw [h.idle hoff]
    rfl
  · simp only [load, capacity] at hfits ⊢
    omega

theorem sound_disconnect (w : Worker) : w.disconnect.Sound where
  idle _ := rfl
  fits := Nat.zero_le _
  current h := by simp [disconnect, isOnline] at h

/-- A worker as a heartbeat finds it and leaves it. -/
def beat (w : Worker) (usage : Usage) (now : Instant) : Worker :=
  if w.isOnline then { w with lastHeartbeat := now, usage }
  else { w with lastHeartbeat := now, usage, status := .available }.refresh

theorem beat_active (w : Worker) (usage : Usage) (now : Instant) :
    (w.beat usage now).active = w.active := by
  unfold beat
  split
  · rfl
  · rw [refresh_active]

theorem beat_info (w : Worker) (usage : Usage) (now : Instant) :
    (w.beat usage now).info = w.info := by
  unfold beat
  split
  · rfl
  · rw [refresh_info]

theorem sound_beat {w : Worker} (h : w.Sound) (usage : Usage) (now : Instant) :
    (w.beat usage now).Sound := by
  unfold beat
  split
  · rename_i hon
    exact ⟨h.idle, h.fits, fun _ => h.current hon⟩
  · exact sound_refresh (fun hoff => by simp [isOnline] at hoff) h.fits

end Worker

/-! ## Look-ups -/

namespace Roster

/-- The worker is known and holds the build. -/
def Holds (r : Roster) (w : WorkerId) (b : BuildId) : Prop :=
  ∃ worker, r.find? w = some worker ∧ b ∈ worker.active

def Sound (r : Roster) : Prop := ∀ id w, r.find? id = some w → w.Sound

theorem id_of_find? {r : Roster} {id : WorkerId} {w : Worker} (h : r.find? id = some w) :
    w.id = id := by
  have hkey : w.key = id.text := Catalog.key_of_find? h
  exact WorkerId.text_inj.1 hkey

theorem mem_list_iff {r : Roster} {w : Worker} : w ∈ r.list ↔ r.find? w.id = some w :=
  Catalog.mem_iff_find?

theorem find?_put (r : Roster) (w : Worker) (id : WorkerId) :
    (r.put w).find? id = if id = w.id then some w else r.find? id := by
  rw [find?, put, Catalog.find?_insert]
  simp only [Worker.key, Worker.id, WorkerId.text_inj]
  rfl

theorem put_of_find? {r : Roster} {w : Worker} (h : r.find? w.id = some w) : r.put w = r :=
  congrArg Roster.mk (Catalog.insert_of_find? h)

theorem sound_put {r : Roster} {w : Worker} (h : r.Sound) (hw : w.Sound) : (r.put w).Sound := by
  intro id x hx
  rw [find?_put] at hx
  split at hx
  · cases hx
    exact hw
  · exact h id x hx

theorem holds_put {r : Roster} {w : Worker} {id : WorkerId} {b : BuildId} :
    (r.put w).Holds id b ↔ (id = w.id ∧ b ∈ w.active) ∨ (id ≠ w.id ∧ r.Holds id b) := by
  unfold Holds
  rw [find?_put]
  by_cases h : id = w.id
  · simp [h]
  · simp [h]

/-- A worker of the roster with other data and the same builds changes nothing about the slots. -/
theorem holds_put_of_active_eq {r : Roster} {id : WorkerId} {w w' : Worker}
    (h : r.find? id = some w) (hid : w'.id = w.id) (hactive : w'.active = w.active)
    {x : WorkerId} {b : BuildId} : (r.put w').Holds x b ↔ r.Holds x b := by
  rw [holds_put, hid, id_of_find? h, hactive]
  by_cases hx : x = id
  · subst hx
    simp [Holds, h]
  · simp [hx]

/-! ## What each operation does -/

theorem require_eq_ok {r : Roster} {id : WorkerId} {w : Worker} (h : r.require id = .ok w) :
    r.find? id = some w := by
  unfold require at h
  split at h
  · rename_i hf
    cases h
    exact hf
  · cases h

theorem register_eq_ok {r r' : Roster} {info : WorkerInfo} {now : Instant} {w : Worker}
    (h : r.register info now = .ok (w, r')) :
    info.validate = .ok () ∧ r.find? info.id = none ∧ w = Worker.ofInfo info now ∧
      r' = r.put w := by
  obtain ⟨_, hvalid, h⟩ := Refusal.of_bind_eq_ok h
  split at h
  · cases h
  · rename_i hnew
    cases h
    exact ⟨hvalid, by simpa using hnew, rfl, rfl⟩

theorem heartbeat_eq_ok {r r' : Roster} {id : WorkerId} {usage : Usage} {now : Instant}
    {revived : Bool} (h : r.heartbeat id usage now = .ok (revived, r')) :
    ∃ w, r.find? id = some w ∧ revived = !w.isOnline ∧ r' = r.put (w.beat usage now) := by
  obtain ⟨w, hw, h⟩ := Refusal.of_bind_eq_ok h
  refine ⟨w, require_eq_ok hw, ?_⟩
  unfold Worker.beat
  change (if w.isOnline = true then _ else _) = _ at h
  split at h
  · rename_i hon
    cases h
    rw [if_pos hon, hon]
    exact ⟨rfl, rfl⟩
  · rename_i hoff
    cases h
    rw [if_neg hoff, Bool.eq_false_iff.2 hoff]
    exact ⟨rfl, rfl⟩

theorem reserve_eq_ok {r r' : Roster} {id : WorkerId} {b : BuildId}
    (h : r.reserve id b = .ok r') :
    ∃ w, r.find? id = some w ∧ w.hasFreeSlot = true ∧ r' = r.put (w.take b) := by
  obtain ⟨w, hw, h⟩ := Refusal.of_bind_eq_ok h
  refine ⟨w, require_eq_ok hw, ?_⟩
  split at h
  · rename_i hfree
    cases h
    exact ⟨hfree, rfl⟩
  · cases h

theorem release_eq_ok {r r' : Roster} {id : WorkerId} {b : BuildId}
    (h : r.release id b = .ok r') : ∃ w, r.find? id = some w ∧ r' = r.put (w.release b) := by
  obtain ⟨w, hw, h⟩ := Refusal.of_bind_eq_ok h
  cases h
  exact ⟨w, require_eq_ok hw, rfl⟩

theorem find?_eq_none_of_release {r : Roster} {id : WorkerId} {b : BuildId} {e : Refusal}
    (h : r.release id b = .error e) : r.find? id = none := by
  unfold release require at h
  split at h
  · cases h
  · assumption

theorem disconnect_eq_ok {r r' : Roster} {id : WorkerId} {held : List BuildId}
    (h : r.disconnect id = .ok (held, r')) :
    ∃ w, r.find? id = some w ∧ held = w.active.toList ∧ r' = r.put w.disconnect := by
  obtain ⟨w, hw, h⟩ := Refusal.of_bind_eq_ok h
  cases h
  exact ⟨w, require_eq_ok hw, rfl, rfl⟩

theorem disconnect_of_known {r : Roster} {id : WorkerId} {w : Worker} (h : r.find? id = some w) :
    r.disconnect id = .ok (w.active.toList, r.put w.disconnect) := by
  unfold disconnect require
  rw [h]
  rfl

/-! ## Slots after an operation -/

section
variable {r r' : Roster} {id x : WorkerId} {b y : BuildId}

theorem not_holds_of_find?_none (h : r.find? id = none) : ¬ r.Holds id b := by
  rintro ⟨w, hw, -⟩
  rw [h] at hw
  cases hw

theorem holds_register {info : WorkerInfo} {now : Instant} {w : Worker}
    (h : r.register info now = .ok (w, r')) : r'.Holds x y ↔ r.Holds x y := by
  obtain ⟨-, hnew, rfl, rfl⟩ := register_eq_ok h
  rw [holds_put]
  by_cases hx : x = info.id
  · subst hx
    have hnone := not_holds_of_find?_none (b := y) hnew
    simp [Worker.ofInfo, Worker.id, hnone]
  · simp [Worker.ofInfo, Worker.id, hx]

theorem sound_register {info : WorkerInfo} {now : Instant} {w : Worker} (hr : r.Sound)
    (h : r.register info now = .ok (w, r')) : r'.Sound := by
  obtain ⟨hvalid, -, rfl, rfl⟩ := register_eq_ok h
  exact sound_put hr (Worker.sound_ofInfo now hvalid)

theorem holds_heartbeat {usage : Usage} {now : Instant} {revived : Bool}
    (h : r.heartbeat id usage now = .ok (revived, r')) : r'.Holds x y ↔ r.Holds x y := by
  obtain ⟨w, hw, -, rfl⟩ := heartbeat_eq_ok h
  refine holds_put_of_active_eq hw ?_ (Worker.beat_active w usage now)
  rw [Worker.id, Worker.id, Worker.beat_info]

theorem sound_heartbeat {usage : Usage} {now : Instant} {revived : Bool} (hr : r.Sound)
    (h : r.heartbeat id usage now = .ok (revived, r')) : r'.Sound := by
  obtain ⟨w, hw, -, rfl⟩ := heartbeat_eq_ok h
  exact sound_put hr (Worker.sound_beat (hr id w hw) usage now)

theorem holds_reserve (h : r.reserve id b = .ok r') :
    r'.Holds x y ↔ r.Holds x y ∨ (x = id ∧ y = b) := by
  obtain ⟨w, hw, -, rfl⟩ := reserve_eq_ok h
  rw [holds_put, Worker.take_active, Catalog.mem_insert_iff, Worker.id, Worker.take_info,
    ← Worker.id, id_of_find? hw]
  by_cases hx : x = id
  · subst hx
    by_cases hy : y = b
    · simp [hy]
    · simp [hy, Holds, hw]
  · simp [hx]

theorem holds_release (h : r.release id b = .ok r') :
    r'.Holds x y ↔ r.Holds x y ∧ ¬ (x = id ∧ y = b) := by
  obtain ⟨w, hw, rfl⟩ := release_eq_ok h
  rw [holds_put, Worker.release_active, Catalog.mem_erase_iff, Worker.id, Worker.release_info,
    ← Worker.id, id_of_find? hw]
  by_cases hx : x = id
  · subst hx
    simp [Holds, hw]
  · simp [hx]

theorem sound_release (hr : r.Sound) (h : r.release id b = .ok r') : r'.Sound := by
  obtain ⟨w, hw, rfl⟩ := release_eq_ok h
  exact sound_put hr (Worker.sound_release (hr id w hw) b)

end

/-! ## After a restart -/

theorem find?_ofRecords {workers : List Worker} {id : WorkerId} {w : Worker}
    (h : (ofRecords workers).find? id = some w) : ∃ old ∈ workers, w = old.disconnect := by
  unfold ofRecords find? Catalog.ofList at h
  rw [Catalog.find?_foldl_insert, Catalog.find?_empty, Option.or_none] at h
  obtain ⟨old, hold, rfl⟩ := List.mem_map.1 (List.mem_reverse.1 (List.mem_of_find?_eq_some h))
  exact ⟨old, hold, rfl⟩

theorem sound_ofRecords (workers : List Worker) : (ofRecords workers).Sound := by
  intro id w h
  obtain ⟨old, -, rfl⟩ := find?_ofRecords h
  exact Worker.sound_disconnect old

theorem not_holds_ofRecords (workers : List Worker) (id : WorkerId) (b : BuildId) :
    ¬ (ofRecords workers).Holds id b := by
  rintro ⟨w, hw, hb⟩
  obtain ⟨old, -, rfl⟩ := find?_ofRecords hw
  exact Catalog.not_mem_empty b hb

end Roster

end BuildPool
