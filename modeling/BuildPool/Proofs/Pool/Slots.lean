import BuildPool.Metrics
import BuildPool.Proofs.Pool.Reachable

/-!
# Slots in every reachable pool

Whatever happens to a pool, and in whatever order, the worker that the ledger names for a build is
the one that holds it. So the two ways to count the builds that are with workers come to one number.
-/

namespace BuildPool

/-! ## The builds that are with workers, counted twice -/

namespace Roster

variable {r : Roster} {id : BuildId}

/-- The builds that workers hold, worker by worker. -/
def held (r : Roster) : List BuildId := r.list.flatMap fun w => w.active.toList

theorem mem_held : id ∈ r.held ↔ ∃ w, r.Holds w id := by
  rw [held, List.mem_flatMap]
  constructor
  · rintro ⟨w, hw, hid⟩
    exact ⟨w.id, w, mem_list_iff.1 hw, Catalog.mem_toList.1 hid⟩
  · rintro ⟨x, w, hw, hid⟩
    exact ⟨w, mem_list_of_find? hw, Catalog.mem_toList.2 hid⟩

theorem total_load (r : Roster) : r.total Worker.load = r.held.length := by
  unfold total held list
  induction r.workers.toList with
  | nil => rfl
  | cons w rest ih =>
    rw [List.foldr_cons, List.flatMap_cons, List.length_append, ih]
    rfl

theorem nodup_held (h : ∀ w w' id, r.Holds w id → r.Holds w' id → w = w') : r.held.Nodup := by
  refine List.pairwise_flatMap.2 ⟨fun w _ => w.active.nodup_items, ?_⟩
  refine r.workers.ordered.imp_of_mem fun {a b} ha hb hlt x hx y hy hxy => ?_
  subst hxy
  have hid := h a.id b.id x ⟨a, mem_list_iff.1 ha, hx⟩ ⟨b, mem_list_iff.1 hb, hy⟩
  have hkey : a.key = b.key := congrArg WorkerId.text hid
  rw [hkey] at hlt
  exact String.lt_irrefl _ hlt

end Roster

namespace Ledger

variable {l : Ledger} {id : BuildId}

/-- The builds that are assigned or running. -/
def inHand (l : Ledger) : List BuildId :=
  (l.builds.toList.filter (·.status.holdsWorker)).map Build.id

theorem mem_inHand :
    id ∈ l.inHand ↔ ∃ b, l.find? id = some b ∧ b.status.holdsWorker = true :=
  mem_idsWhere

theorem nodup_inHand (l : Ledger) : l.inHand.Nodup := l.nodup_idsWhere _

theorem activeCount_eq (l : Ledger) : l.activeCount = l.inHand.length := by
  rw [inHand, List.length_map, ← List.countP_eq_length_filter]
  unfold activeCount countOf
  generalize l.builds.toList = bs
  induction bs with
  | nil => rfl
  | cons b rest ih =>
    rw [List.countP_cons, List.countP_cons, List.countP_cons, ← ih]
    cases b.status <;> simp [BuildStatus.holdsWorker] <;> omega

end Ledger

theorem Agree.active_eq {given : List BuildId} {l : Ledger} {r : Roster} (h : Agree given l r) :
    (Metrics.collect l r).active = (Metrics.collect l r).workers.activeBuilds := by
  have hunique : ∀ w w' id, r.Holds w id → r.Holds w' id → w = w' := fun w w' id hw hw' =>
    Ledger.heldBy_unique ((h.slots w id).1 hw) ((h.slots w' id).1 hw')
  -- Both lists name the same builds, and each of them once.
  have hperm : l.inHand.Perm r.held := by
    refine (List.perm_ext_iff_of_nodup l.nodup_inHand (Roster.nodup_held hunique)).2 fun id => ?_
    rw [Ledger.mem_inHand, Roster.mem_held]
    constructor
    · rintro ⟨b, hb, hw⟩
      have hworker := h.ledger.records.worker id b hb
      rw [hw, Option.isSome_iff_exists] at hworker
      obtain ⟨w, hworker⟩ := hworker
      exact ⟨w, (h.slots w id).2 ⟨b, hb, Build.heldBy_iff.2 ⟨hw, hworker⟩⟩⟩
    · rintro ⟨w, hw⟩
      obtain ⟨b, hb, hheld⟩ := (h.slots w id).1 hw
      exact ⟨b, hb, (Build.heldBy_iff.1 hheld).1⟩
  change l.activeCount = r.total Worker.load
  rw [Ledger.activeCount_eq, Roster.total_load, hperm.length_eq]

/-! ## One account of the slots -/

/-- Ledger and roster agree on the builds that are with workers, all of which are there, and hold no
more than they have slots for. -/
structure Consistent (l : Ledger) (r : Roster) : Prop where
  same : ∀ w id, (∃ worker, r.find? w = some worker ∧ id ∈ worker.active) ↔
    ∃ b, l.find? id = some b ∧ (b.status = .assigned ∨ b.status = .running) ∧ b.worker = some w
  alone : ∀ w w' id, r.Holds w id → r.Holds w' id → w = w'
  online : ∀ id b, l.find? id = some b → b.status = .assigned ∨ b.status = .running →
    ∃ w worker, b.worker = some w ∧ r.find? w = some worker ∧ worker.isOnline = true
  fits : ∀ w worker, r.find? w = some worker → worker.active.size ≤ worker.info.capacity.toNat
  counted : (Metrics.collect l r).active = (Metrics.collect l r).workers.activeBuilds

theorem Agree.consistent {given : List BuildId} {l : Ledger} {r : Roster} (h : Agree given l r) :
    Consistent l r := by
  have hheld : ∀ w id, r.Holds w id ↔
      ∃ b, l.find? id = some b ∧ (b.status = .assigned ∨ b.status = .running) ∧
        b.worker = some w := by
    intro w id
    rw [h.slots w id]
    simp only [Ledger.HeldBy, Build.heldBy_iff, BuildStatus.holdsWorker_iff]
  refine ⟨hheld, fun w w' id hw hw' => ?_, fun id b hb hs => ?_, fun w worker hw => ?_, h.active_eq⟩
  · exact Ledger.heldBy_unique ((h.slots w id).1 hw) ((h.slots w' id).1 hw')
  · have hworker := h.ledger.records.worker id b hb
    rw [BuildStatus.holdsWorker_iff.2 hs, Option.isSome_iff_exists] at hworker
    obtain ⟨w, hworker⟩ := hworker
    obtain ⟨worker, hw, hid⟩ := (hheld w id).2 ⟨b, hb, hs, hworker⟩
    refine ⟨w, worker, hworker, hw, ?_⟩
    cases hon : worker.isOnline with
    | true => rfl
    | false =>
      rw [(h.roster w worker hw).idle hon] at hid
      exact absurd hid (Catalog.not_mem_empty id)
  · exact (h.roster w worker hw).fits

namespace Course

/-- In every reachable pool a worker holds a build if and only if the ledger has the build assigned
to it or running on it. -/
theorem slots_consistent {c : Course} (h : c.Reachable) :
    Consistent c.pool.ledger c.pool.roster :=
  h.sound.pool.consistent

theorem slots_consistent_twoBuilds :
    (twoBuilds.after (.pass ⟨3, 0⟩)).pool.roster.held = [⟨"b"⟩] ∧
      Consistent (twoBuilds.after (.pass ⟨3, 0⟩)).pool.ledger
        (twoBuilds.after (.pass ⟨3, 0⟩)).pool.roster :=
  ⟨rfl, slots_consistent (reachable_twoBuilds.after _ trivial)⟩

end Course

end BuildPool
