import BuildPool.Proofs.Roster.Preference

/-!
# A coherent roster

What the roster alone guarantees, whatever it is asked: its records agree with each other, and a
build that was handed back for a lost worker has to be reserved again before it can be handed back
again. Which builds there are is up to the ledger: the roster takes any id, and the same for two
workers.
-/

namespace BuildPool

open BuildPool.Time

namespace Worker

variable {w : Worker}

theorem Sound.status_eq_busy_iff (h : w.Sound) (hon : w.status ≠ .offline) :
    w.status = .busy ↔ w.load = w.capacity := by
  have hfits := h.fits
  rw [h.current (w.isOnline_iff.2 hon)]
  split
  · simp only [true_iff]
    omega
  · simp only [reduceCtorEq, false_iff]
    omega

theorem Sound.status_eq_available_iff (h : w.Sound) (hon : w.status ≠ .offline) :
    w.status = .available ↔ w.load < w.capacity := by
  rw [h.current (w.isOnline_iff.2 hon)]
  split
  · simp only [reduceCtorEq, false_iff]
    omega
  · simp only [true_iff]
    omega

end Worker

namespace Roster

variable {r r' : Roster} {op : Op} {ops : List Op} {w x : WorkerId} {b : BuildId}

/-! ## Figures -/

theorem total_le_total {f g : Worker → Nat} (h : ∀ w ∈ r.list, f w ≤ g w) :
    r.total f ≤ r.total g := by
  unfold total
  unfold list at h
  generalize r.workers.toList = ws at h
  induction ws with
  | nil => exact Nat.le_refl 0
  | cons w rest ih =>
    obtain ⟨hw, hrest⟩ := List.forall_mem_cons.1 h
    exact Nat.add_le_add hw (ih hrest)

theorem activeBuilds_le_capacity (hr : r.Sound) : r.counts.activeBuilds ≤ r.counts.capacity := by
  refine total_le_total fun w hw => ?_
  have hsound := hr _ w (find?_of_mem hw)
  split
  · exact hsound.fits
  · rename_i hoffline
    have hempty := hsound.idle (Bool.eq_false_iff.2 hoffline)
    rw [Worker.load, hempty]
    exact Nat.le_refl 0

theorem countOf_add (r : Roster) :
    r.countOf .available + r.countOf .busy + r.countOf .offline = r.size := by
  change _ = r.workers.toList.length
  unfold countOf
  induction r.workers.toList with
  | nil => rfl
  | cons w rest ih =>
    simp only [List.countP_cons, List.length_cons, ← ih]
    cases w.status <;> grind

/-- The records of a roster agree with each other, and with its figures. -/
structure Coherent (r : Roster) : Prop where
  /-- A worker is found under its own id, and no other is. -/
  keyed : ∀ id w, r.find? id = some w ↔ w ∈ r.list ∧ w.id = id
  fits : ∀ w ∈ r.list, w.load ≤ w.capacity
  /-- Nothing is lost when the number of builds is cut to a machine word. -/
  counted : ∀ w ∈ r.list, w.inUse.toNat = w.load
  idle : ∀ w ∈ r.list, w.status = .offline → w.active.toList = []
  busy : ∀ w ∈ r.list, w.status ≠ .offline → (w.status = .busy ↔ w.load = w.capacity)
  available : ∀ w ∈ r.list, w.status ≠ .offline → (w.status = .available ↔ w.load < w.capacity)
  statuses : r.counts.available + r.counts.busy + r.counts.offline = r.counts.total
  slots : r.counts.activeBuilds ≤ r.counts.capacity

theorem coherent_of_sound (hr : r.Sound) : r.Coherent := by
  have hsound : ∀ w ∈ r.list, w.Sound := fun w hw => hr _ w (find?_of_mem hw)
  exact {
    keyed := fun id w => by
      constructor
      · intro h
        exact ⟨mem_list_of_find? h, id_of_find? h⟩
      · rintro ⟨hw, rfl⟩
        exact find?_of_mem hw
    fits := fun w hw => (hsound w hw).fits
    counted := fun w hw => Worker.inUse_toNat (hsound w hw)
    idle := fun w hw hoffline => by
      have hempty := (hsound w hw).idle (by simp [Worker.isOnline, hoffline])
      rw [hempty]
      rfl
    busy := fun w hw hon => (hsound w hw).status_eq_busy_iff hon
    available := fun w hw hon => (hsound w hw).status_eq_available_iff hon
    statuses := countOf_add r
    slots := activeBuilds_le_capacity hr }

/-! ## Builds that are handed back -/

/-- The builds that are handed back, each with the worker that is marked offline. -/
def handedBack (r : Roster) : Op → List (WorkerId × BuildId)
  | .disconnect id =>
    match r.disconnect id with
    | .ok (held, _) => held.map fun b => (id, b)
    | .error _ => []
  | _ => []

/-- What is handed back is what the worker held. -/
theorem mem_handedBack_iff : (w, b) ∈ r.handedBack op ↔ op = .disconnect w ∧ r.Holds w b := by
  constructor
  · intro h
    unfold handedBack at h
    split at h
    · split at h
      · rename_i hok
        obtain ⟨worker, hworker, rfl, -⟩ := disconnect_eq_ok hok
        simp only [List.mem_map, Prod.mk.injEq] at h
        obtain ⟨_, hb, rfl, rfl⟩ := h
        exact ⟨rfl, worker, hworker, hb⟩
      · cases h
    · cases h
  · rintro ⟨rfl, worker, hworker, hb⟩
    simp only [handedBack, disconnect_of_known hworker, List.mem_map, Prod.mk.injEq, true_and,
      exists_eq_right]
    exact hb

theorem holds_disconnect {held : List BuildId} (h : r.disconnect w = .ok (held, r')) :
    r'.Holds x b ↔ x ≠ w ∧ r.Holds x b := by
  obtain ⟨worker, hworker, -, rfl⟩ := disconnect_eq_ok h
  have hid : worker.disconnect.id = w := id_of_find? (w := worker) hworker
  have hempty : b ∉ worker.disconnect.active := Catalog.not_mem_empty b
  rw [holds_put, hid]
  simp [hempty]

/-! ## How a worker comes to hold a build -/

def afterAll (r : Roster) (ops : List Op) : Roster := ops.foldl after r

/-- Among the requests is the one that puts the build into a slot of the worker, which it did not
hold until then. -/
def Takes (r : Roster) (ops : List Op) (w : WorkerId) (b : BuildId) : Prop :=
  ∃ before later, ops = before ++ .reserve w b :: later ∧ ¬ (r.afterAll before).Holds w b ∧
    ∃ r', (r.afterAll before).reserve w b = .ok r' ∧ r'.Holds w b

theorem Takes.cons (h : (r.after op).Takes ops w b) : r.Takes (op :: ops) w b := by
  obtain ⟨before, later, rfl, hnot, htaken⟩ := h
  exact ⟨op :: before, later, rfl, hnot, htaken⟩

/-- No request but a reservation gives a worker a build. -/
theorem holds_after (h : (r.after op).Holds x b) :
    r.Holds x b ∨ op = .reserve x b ∧ ∃ r', r.reserve x b = .ok r' ∧ r'.Holds x b := by
  cases op with
  | register info now =>
    exact orElse_induction (P := fun r' => r'.Holds x b → _) .inl
      (fun _ hok hx => .inl ((holds_register hok).1 hx)) h
  | heartbeat id usage now =>
    exact orElse_induction (P := fun r' => r'.Holds x b → _) .inl
      (fun _ hok hx => .inl ((holds_heartbeat hok).1 hx)) h
  | reserve id c =>
    refine orElse_induction (P := fun r' => r'.Holds x b → _) .inl (fun r' hok hx => ?_) h
    rcases (holds_reserve hok).1 hx with hx' | ⟨rfl, rfl⟩
    · exact .inl hx'
    · exact .inr ⟨rfl, r', hok, hx⟩
  | release id c =>
    exact orElse_induction (P := fun r' => r'.Holds x b → _) .inl
      (fun _ hok hx => .inl ((holds_release hok).1 hx).1) h
  | disconnect id =>
    exact orElse_induction (P := fun r' => r'.Holds x b → _) .inl
      (fun _ hok hx => .inl ((holds_disconnect hok).1 hx).2) h

/-- A worker that holds a build after some requests held it before, or took it in between. -/
theorem holds_afterAll (h : (r.afterAll ops).Holds x b) : r.Holds x b ∨ r.Takes ops x b := by
  induction ops generalizing r with
  | nil => exact .inl h
  | cons op rest ih =>
    rcases ih h with hfirst | hlater
    · by_cases hbefore : r.Holds x b
      · exact .inl hbefore
      · rcases holds_after hfirst with hx | ⟨rfl, htaken⟩
        · exact absurd hx hbefore
        · exact .inr ⟨[], rest, rfl, hbefore, htaken⟩
    · exact .inr hlater.cons

theorem holds_after_disconnect : (r.after (.disconnect w)).Holds x b ↔ x ≠ w ∧ r.Holds x b := by
  cases hdisconnect : r.disconnect w with
  | ok answer =>
    have hafter : r.after (.disconnect w) = answer.2 := by rw [after, hdisconnect, orElse]
    rw [hafter]
    exact holds_disconnect hdisconnect
  | error e =>
    have hafter : r.after (.disconnect w) = r := by rw [after, hdisconnect, orElse]
    rw [hafter]
    refine ⟨fun h => ⟨?_, h⟩, And.right⟩
    rintro rfl
    obtain ⟨worker, hworker, -⟩ := h
    rw [disconnect_of_known hworker] at hdisconnect
    cases hdisconnect

/-- A build that was handed back for one worker is handed back again, for the same worker or for
another, only if that worker took it in between, or is another that held it already. -/
theorem handedBack_again {op' : Op} (h : (w, b) ∈ r.handedBack op)
    (h' : (x, b) ∈ ((r.after op).afterAll ops).handedBack op') :
    (r.after op).Takes ops x b ∨ x ≠ w ∧ r.Holds x b := by
  obtain ⟨rfl, -⟩ := mem_handedBack_iff.1 h
  obtain ⟨-, hx⟩ := mem_handedBack_iff.1 h'
  rcases holds_afterAll hx with hfirst | htaken
  · exact .inr (holds_after_disconnect.1 hfirst)
  · exact .inl htaken

/-- However a roster came about, its records are coherent, and it hands no build back again for a
worker that did not take it again. -/
theorem Reachable.coherent (h : r.Reachable) : r.Coherent ∧
    ∀ op ops op' w x b, (w, b) ∈ r.handedBack op →
      (x, b) ∈ ((r.after op).afterAll ops).handedBack op' →
      (r.after op).Takes ops x b ∨ x ≠ w ∧ r.Holds x b :=
  ⟨coherent_of_sound h.sound, fun _ _ _ _ _ _ => handedBack_again⟩

/-- Two workers that hold the same build. -/
def sharedBuild : Roster :=
  (((empty.after (.register { id := ⟨"v"⟩, address := "x", capacity := 1 } ⟨1, 0⟩)).after
    (.register { id := ⟨"w"⟩, address := "y", capacity := 1 } ⟨1, 0⟩)).after
      (.reserve ⟨"v"⟩ ⟨"a"⟩)).after (.reserve ⟨"w"⟩ ⟨"a"⟩)

theorem reachable_sharedBuild : sharedBuild.Reachable :=
  (((Reachable.empty.after _).after _).after _).after _

theorem coherent_sharedBuild :
    sharedBuild.Reachable ∧ sharedBuild.Coherent ∧
      ((sharedBuild.after (.disconnect ⟨"v"⟩)).Takes [] ⟨"w"⟩ ⟨"a"⟩ ∨
        (⟨"w"⟩ : WorkerId) ≠ ⟨"v"⟩ ∧ sharedBuild.Holds ⟨"w"⟩ ⟨"a"⟩) := by
  have hcoherent := reachable_sharedBuild.coherent
  exact ⟨reachable_sharedBuild, hcoherent.1,
    hcoherent.2 (.disconnect ⟨"v"⟩) [] (.disconnect ⟨"w"⟩) ⟨"v"⟩ ⟨"w"⟩ ⟨"a"⟩ (by decide) (by decide)⟩

/-- A build that two workers hold is handed back twice, without a reservation in between. -/
theorem handedBack_twice :
    ¬ ∀ r : Roster, r.Reachable → ∀ op ops op' w x b, (w, b) ∈ r.handedBack op →
      (x, b) ∈ ((r.after op).afterAll ops).handedBack op' → ∃ y, Op.reserve y b ∈ ops := by
  intro h
  obtain ⟨y, hy⟩ := h sharedBuild reachable_sharedBuild (.disconnect ⟨"v"⟩) [] (.disconnect ⟨"w"⟩)
    ⟨"v"⟩ ⟨"w"⟩ ⟨"a"⟩ (by decide) (by decide)
  cases hy

end Roster

end BuildPool
