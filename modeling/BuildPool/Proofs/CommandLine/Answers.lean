import BuildPool.Api.Router
import BuildPool.CommandLine.Run
import BuildPool.Proofs.Number.UnitRange
import BuildPool.Proofs.Wire.Snapshots

/-!
# Answers on both sides

The pool writes its answers and the client reads them, and each side declares the bodies for itself.
Every body that the pool writes is read by the client as what the pool put there, numbers as their
decimals are read, and every refusal as the words of the refusal.
-/

namespace BuildPool

open BuildPool.Api BuildPool.Client BuildPool.Json BuildPool.Json.Field BuildPool.Number

/-! ## Single members -/

namespace Json.Record

variable {α : Type} [Decode α] {r : Record} {name : String} {j : Json} {a : α}

theorem required_of_lookup (hj : r.lookup name = some j) (h : decode j = .ok a) :
    r.required name = .ok a := by
  rw [required, hj]
  exact h

theorem withDefault_of_lookup (hj : r.lookup name = some j) (h : decode j = .ok a) (d : α) :
    r.withDefault name d = .ok a := by
  rw [withDefault, hj]
  exact h

theorem natural_of_lookup {n bound : Nat} (hj : r.lookup name = some (encode n)) (h : n < bound)
    (d : Option Nat) : r.natural name bound d = .ok n := by
  simp only [natural, hj]
  exact decodeBelow_encode h

end Json.Record

open Json.Record

namespace CommandLine

/-! ## Builds -/

def SubmitAnswer.of (b : Build) : SubmitAnswer := ⟨b.id.text, b.status⟩

theorem decode_submittedBody (b : Build) : decode (submittedBody b) = .ok (SubmitAnswer.of b) := by
  obtain ⟨r, hrecord, hid, hstatus⟩ : ∃ r,
      record ["build_id", "status"] (submittedBody b) = .ok r ∧
      r.lookup "build_id" = some (encode b.id) ∧ r.lookup "status" = some (encode b.status) :=
    ⟨_, rfl, rfl, rfl⟩
  have hid := required_of_lookup (a := b.id.text) hid rfl
  have hstatus := required_of_lookup hstatus (decode_of_tells (tells_encode b.status))
  simp only [decode, hrecord, ok_bind, hid, hstatus]
  rfl

/-- A cancelled build, or one that had ended before. -/
def CancelAnswer.of (c : Cancellation) : CancelAnswer := ⟨c.status⟩

theorem decode_cancelledBody (c : Cancellation) :
    decode (cancelledBody c) = .ok (CancelAnswer.of c) := by
  obtain ⟨r, hrecord, hstatus⟩ : ∃ r, record ["status"] (cancelledBody c) = .ok r ∧
      r.lookup "status" = some (encode c.status) := ⟨_, rfl, rfl⟩
  have hstatus := required_of_lookup hstatus (decode_of_tells (tells_encode c.status))
  simp only [decode, hrecord, ok_bind, hstatus]
  rfl

/-- The progress is what its decimal is read as. -/
def StatusAnswer.of (b : Build) : StatusAnswer where
  build := b.id.text
  status := b.status
  progress := readBack b.progress
  error := b.error?
  worker := b.worker.map WorkerId.text
  retries := b.retries

theorem decode_statusBody {b : Build} (hretries : b.retries < UInt32.size)
    (hprogress : InUnit b.progress) : decode (statusBody b) = .ok (StatusAnswer.of b) := by
  obtain ⟨r, hrecord, hid, hstatus, hnumber, hcount, herror, hworker⟩ : ∃ r,
      record ["build_id", "status", "progress", "error", "worker_id", "retry_count"]
        (statusBody b) = .ok r ∧
      r.lookup "build_id" = some (encode b.id) ∧ r.lookup "status" = some (encode b.status) ∧
      r.lookup "progress" = some (encode b.progress) ∧
      r.lookup "retry_count" = some (encode b.retries) ∧
      r.optional "error" = .ok b.error? ∧
      r.optional "worker_id" = .ok (b.worker.map WorkerId.text) := by
    unfold statusBody
    -- A member without a value is left out, so there are four forms.
    cases b.error? with
    | none =>
      cases b.worker with
      | none => exact ⟨_, rfl, rfl, rfl, rfl, rfl, rfl, rfl⟩
      | some w => exact ⟨_, rfl, rfl, rfl, rfl, rfl, rfl, rfl⟩
    | some reason =>
      cases b.worker with
      | none => exact ⟨_, rfl, rfl, rfl, rfl, rfl, rfl, rfl⟩
      | some w => exact ⟨_, rfl, rfl, rfl, rfl, rfl, rfl, rfl⟩
  have hid := required_of_lookup (a := b.id.text) hid rfl
  have hstatus := required_of_lookup hstatus (decode_of_tells (tells_encode b.status))
  have hnumber := required_of_lookup hnumber
    (decode_of_tells (tells_float hprogress.finite hprogress.toFloat?_decimalOf))
  have hcount := natural_of_lookup hcount hretries none
  simp only [decode, hrecord, ok_bind, hid, hstatus, hnumber, herror, hworker, hcount]
  rfl

theorem decode_buildListBody {builds : List Build} (hwords : ∀ b ∈ builds, b.InWords)
    (hinstants : ∀ b ∈ builds, ∀ t ∈ b.instants, t.Valid)
    (hprogress : ∀ b ∈ builds, InUnit b.progress) :
    decode (buildListBody builds) =
      .ok (BuildListAnswer.mk (builds.map (Build.mapNumbers readBack))) := by
  have htells : Tells (encode builds) (builds.map (Build.mapNumbers readBack)) :=
    tells_map fun b hb => tells_build (hwords b hb) (hinstants b hb)
      (tells_float (hprogress b hb).finite (hprogress b hb).toFloat?_decimalOf)
  obtain ⟨r, hrecord, hbuilds⟩ : ∃ r, record ["builds"] (buildListBody builds) = .ok r ∧
      r.lookup "builds" = some (encode builds) := ⟨_, rfl, rfl⟩
  have hbuilds := required_of_lookup hbuilds (decode_of_tells htells)
  simp only [decode, hrecord, ok_bind, hbuilds]
  rfl

/-! ## Workers -/

def WorkerRow.of (w : Worker) : WorkerRow where
  worker := w.id.text
  address := w.info.address
  status := w.status.name
  capacity := w.capacity
  load := w.load
  capabilities := w.info.capabilities
  lastHeartbeat := w.lastHeartbeat.toOffsetText

theorem decode_workerBody {w : Worker} (hload : w.load < UInt32.size) :
    decode (workerBody w) = .ok (WorkerRow.of w) := by
  obtain ⟨r, hrecord, hid, haddress, hstatus, hcapacity, hactive, hcapabilities, hheartbeat⟩ : ∃ r,
      record WorkerRow.fields (workerBody w) = .ok r ∧
      r.lookup "worker_id" = some (encode w.id) ∧
      r.lookup "address" = some (encode w.info.address) ∧
      r.lookup "status" = some (encode w.status) ∧
      r.lookup "capacity" = some (encode w.capacity) ∧
      r.lookup "active_builds" = some (encode w.load) ∧
      r.lookup "capabilities" = some (encode w.info.capabilities) ∧
      r.lookup "last_heartbeat" = some (encode w.lastHeartbeat.toOffsetText) :=
    ⟨_, rfl, rfl, rfl, rfl, rfl, rfl, rfl, rfl⟩
  have hid := required_of_lookup (a := w.id.text) hid rfl
  have haddress := required_of_lookup (a := w.info.address) haddress rfl
  have hstatus := required_of_lookup (a := w.status.name) hstatus rfl
  have hcapacity := natural_of_lookup hcapacity w.info.capacity.toNat_lt none
  have hactive := natural_of_lookup hactive hload none
  have hcapabilities := withDefault_of_lookup hcapabilities
    (decode_of_tells (tells_encode w.info.capabilities)) []
  have hheartbeat := required_of_lookup (a := w.lastHeartbeat.toOffsetText) hheartbeat rfl
  simp only [decode, hrecord, ok_bind, hid, haddress, hstatus, hcapacity, hactive, hcapabilities,
    hheartbeat]
  rfl

theorem decode_workerListBody {workers : List Worker}
    (hload : ∀ w ∈ workers, w.load < UInt32.size) :
    decode (workerListBody workers) = .ok (WorkerListAnswer.mk (workers.map WorkerRow.of)) := by
  obtain ⟨r, hrecord, hworkers⟩ : ∃ r, record ["workers"] (workerListBody workers) = .ok r ∧
      r.lookup "workers" = some (.array (workers.map workerBody)) := ⟨_, rfl, rfl⟩
  have hrows : decode (.array (workers.map workerBody)) = .ok (workers.map WorkerRow.of) :=
    mapM_eq_ok (List.forall₂_map_left_iff.2 (List.forall₂_map_right_iff.2
      (List.forall₂_same.2 fun w hw => decode_workerBody (hload w hw))))
  have hworkers := required_of_lookup hworkers hrows
  simp only [decode, hrecord, ok_bind, hworkers]
  rfl

/-! ## Figures -/

end CommandLine

structure WorkerCounts.InWords (c : WorkerCounts) : Prop where
  total : c.total < UInt64.size
  available : c.available < UInt64.size
  busy : c.busy < UInt64.size
  offline : c.offline < UInt64.size
  capacity : c.capacity < UInt64.size
  activeBuilds : c.activeBuilds < UInt64.size

structure Metrics.InWords (m : Metrics) : Prop where
  total : m.total < UInt64.size
  queued : m.queued < UInt64.size
  active : m.active < UInt64.size
  completed : m.completed < UInt64.size
  failed : m.failed < UInt64.size
  cancelled : m.cancelled < UInt64.size
  retried : m.retried < UInt64.size
  cacheHits : m.cacheHits < UInt64.size
  workers : m.workers.InWords

namespace CommandLine

theorem decode_workerCounts {c : WorkerCounts} (h : c.InWords) : decode (encode c) = .ok c := by
  obtain ⟨r, hrecord, htotal, havailable, hbusy, hoffline, hcapacity, hactive⟩ : ∃ r,
      record countFields (encode c) = .ok r ∧ r.lookup "total" = some (encode c.total) ∧
      r.lookup "available" = some (encode c.available) ∧
      r.lookup "busy" = some (encode c.busy) ∧ r.lookup "offline" = some (encode c.offline) ∧
      r.lookup "capacity" = some (encode c.capacity) ∧
      r.lookup "active_builds" = some (encode c.activeBuilds) :=
    ⟨_, rfl, rfl, rfl, rfl, rfl, rfl, rfl⟩
  simp only [decode, hrecord, ok_bind, natural_of_lookup htotal h.total,
    natural_of_lookup havailable h.available, natural_of_lookup hbusy h.busy,
    natural_of_lookup hoffline h.offline, natural_of_lookup hcapacity h.capacity,
    natural_of_lookup hactive h.activeBuilds]
  rfl

theorem decode_metrics {m : Metrics} (h : m.InWords) : decode (encode m) = .ok m := by
  obtain ⟨r, hrecord, htotal, hqueued, hactive, hcompleted, hfailed, hcancelled, hretried,
      hcacheHits, hworkers⟩ : ∃ r,
      record metricFields (encode m) = .ok r ∧ r.lookup "total" = some (encode m.total) ∧
      r.lookup "queued" = some (encode m.queued) ∧ r.lookup "active" = some (encode m.active) ∧
      r.lookup "completed" = some (encode m.completed) ∧
      r.lookup "failed" = some (encode m.failed) ∧
      r.lookup "cancelled" = some (encode m.cancelled) ∧
      r.lookup "retried" = some (encode m.retried) ∧
      r.lookup "cache_hits" = some (encode m.cacheHits) ∧
      r.lookup "workers" = some (encode m.workers) :=
    ⟨_, rfl, rfl, rfl, rfl, rfl, rfl, rfl, rfl, rfl, rfl⟩
  have hworkers := required_of_lookup hworkers (decode_workerCounts h.workers)
  simp only [decode, hrecord, ok_bind, natural_of_lookup htotal h.total,
    natural_of_lookup hqueued h.queued, natural_of_lookup hactive h.active,
    natural_of_lookup hcompleted h.completed, natural_of_lookup hfailed h.failed,
    natural_of_lookup hcancelled h.cancelled, natural_of_lookup hretried h.retried,
    natural_of_lookup hcacheHits h.cacheHits, hworkers]
  rfl

/-! ## Refusals -/

theorem decode_errorBody (message : String) :
    decode (errorBody message) = .ok (ErrorAnswer.mk message) := rfl

end CommandLine

/-! ## Texts of answers -/

namespace Api

theorem writable_member? {α : Type} [Encode α] [Textual α] (name : String) (a : Option α) :
    ∀ m ∈ member? name a, m.2.Writable := by
  intro m hm
  cases a with
  | none => cases hm
  | some a =>
    obtain rfl := List.mem_singleton.1 hm
    exact writable a

theorem writable_submittedBody (b : Build) : (submittedBody b).Writable :=
  ⟨writable b.id, writable b.status, trivial⟩

theorem writable_cancelledBody (c : Cancellation) : (cancelledBody c).Writable :=
  ⟨writable true, writable c.status, trivial⟩

theorem writable_buildListBody (builds : List Build) : (buildListBody builds).Writable :=
  ⟨writable builds, trivial⟩

theorem writable_counts (c : WorkerCounts) : (encode c).Writable :=
  ⟨writable c.total, writable c.available, writable c.busy, writable c.offline, writable c.capacity,
    writable c.activeBuilds, trivial⟩

theorem writable_metrics (m : Metrics) : (encode m).Writable :=
  ⟨writable m.total, writable m.queued, writable m.active, writable m.completed, writable m.failed,
    writable m.cancelled, writable m.retried, writable m.cacheHits, writable_counts m.workers,
    trivial⟩

theorem writable_statusBody (b : Build) : (statusBody b).Writable := by
  refine writableMembers_iff.2 fun m hm => ?_
  simp only [List.mem_append, List.mem_cons, List.not_mem_nil, or_false] at hm
  rcases hm with (((rfl | rfl | rfl) | hm) | hm) | rfl
  · exact writable b.id
  · exact writable b.status
  · exact writable b.progress
  · exact writable_member? _ _ m hm
  · exact writable_member? _ _ m hm
  · exact writable b.retries

theorem writable_workerBody (w : Worker) : (workerBody w).Writable :=
  ⟨writable w.info.id, writable w.info.address, writable w.status, writable w.info.capacity,
    writable w.load, writable w.active, writable w.info.capabilities, writable w.info.labels,
    writable w.usage.cpu, writable w.usage.memory, writable w.lastHeartbeat.toOffsetText,
    writable w.registeredAt.toOffsetText, trivial⟩

theorem writable_workerListBody (workers : List Worker) : (workerListBody workers).Writable := by
  refine ⟨writableItems_iff.2 fun item hitem => ?_, trivial⟩
  obtain ⟨w, -, rfl⟩ := List.mem_map.1 hitem
  exact writable_workerBody w

end Api

end BuildPool
