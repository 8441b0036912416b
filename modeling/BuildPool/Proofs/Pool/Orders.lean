import BuildPool.Proofs.Ledger.Orders
import BuildPool.Proofs.Pool.Reachable

/-!
# Orders that do not matter

A snapshot lists builds and workers in some order, and a pool goes through its tables in some order.
Neither shows: not in what is restored, not in the next snapshot, and not in any listing.
-/

namespace BuildPool

open BuildPool.Time Ledger

/-! ## Workers in any order -/

namespace Roster

variable {r : Roster} {ws vs : List Worker}

def byId (ws : List Worker) : List Worker := ws.mergeSort fun a b => a.key ≤ b.key

/-- The roster lists the same in whatever order it goes through its workers. -/
def AnyOrder (r : Roster) : Prop := ∀ ws, ws.Perm r.workers.toList → byId ws = r.list

theorem anyOrder (r : Roster) : r.AnyOrder := by
  intro ws hperm
  have hsorted : (byId ws).Pairwise fun a b => decide (a.key ≤ b.key) = true := by
    refine List.pairwise_mergeSort ?_ ?_ ws
    · intro a b c hab hbc
      rw [decide_eq_true_eq] at hab hbc ⊢
      exact String.le_trans hab hbc
    · intro a b
      rw [Bool.or_eq_true, decide_eq_true_eq, decide_eq_true_eq]
      exact String.le_total a.key b.key
  have hordered : r.list.Pairwise fun a b => decide (a.key ≤ b.key) = true :=
    r.workers.ordered.imp fun hlt =>
      decide_eq_true (String.not_lt.1 fun hgt => String.lt_irrefl _ (String.lt_trans hlt hgt))
  have hsame : (byId ws).Perm r.list := (List.mergeSort_perm ws _).trans hperm
  refine hsame.eq_of_pairwise (fun a b ha hb hab hba => ?_) hsorted hordered
  rw [decide_eq_true_eq] at hab hba
  exact Catalog.eq_of_key_eq (hsame.mem_iff.1 ha) hb (String.le_antisymm hab hba)

theorem ofRecords_eq_of_perm (hids : (ws.map Worker.id).Nodup) (hperm : ws.Perm vs) :
    ofRecords vs = ofRecords ws := by
  have honce : ∀ a ∈ ws.map Worker.disconnect, ∀ b ∈ ws.map Worker.disconnect,
      a.key = b.key → a = b := by
    intro a ha b hb hkey
    obtain ⟨x, hx, rfl⟩ := List.mem_map.1 ha
    obtain ⟨y, hy, rfl⟩ := List.mem_map.1 hb
    have hid : x.id = y.id := WorkerId.text_inj.1 hkey
    rw [List.inj_on_of_nodup_map hids hx hy hid]
  have hmapped := hperm.map Worker.disconnect
  have honce' : ∀ a ∈ vs.map Worker.disconnect, ∀ b ∈ vs.map Worker.disconnect,
      a.key = b.key → a = b :=
    fun a ha b hb => honce a (hmapped.mem_iff.2 ha) b (hmapped.mem_iff.2 hb)
  refine congrArg Roster.mk (Catalog.ext_find? fun k => Option.ext fun w => ?_)
  rw [Catalog.find?_ofList_eq_some_iff honce', Catalog.find?_ofList_eq_some_iff honce,
    hmapped.mem_iff]

end Roster

/-! ## Snapshots in any order -/

namespace Snapshot

variable {s s' : Snapshot}

/-- No two builds have one id or one number, and no two workers have one id. -/
structure Distinct (s : Snapshot) : Prop where
  builds : (s.image.builds.map Build.id).Nodup
  sequences : (s.image.builds.map Build.sequence).Nodup
  workers : (s.workers.map Worker.id).Nodup

/-- The second snapshot differs from the first in the order of its builds and of its workers. -/
structure Rearranges (s s' : Snapshot) : Prop where
  builds : s.image.builds.Perm s'.image.builds
  workers : s.workers.Perm s'.workers
  rest : s' = { s with image.builds := s'.image.builds, workers := s'.workers }

/-- The same comes back, as far as can be seen. -/
structure Restored.Same (r r' : Restored) : Prop where
  recovered : r'.recovered = r.recovered
  exported : r'.ledger.toImage = r.ledger.toImage
  roster : r'.roster = r.roster
  drained : r'.ledger.backlog.drain = r.ledger.backlog.drain
  queue : r'.ledger.drainQueued = r.ledger.drainQueued

/-- The order in which tables are gone through does not matter, before the builds lose their
workers and after it. -/
structure AnyOrder (s : Snapshot) (config : Config) (now : Instant) : Prop where
  reopened : (reopen s.image config.maxRetries config.retainedHistory).AnyOrder
  ledger : (s.restore config now).ledger.AnyOrder
  roster : (s.restore config now).roster.AnyOrder

theorem Distinct.entries (h : s.Distinct) : DistinctEntries (s.image.builds.map Build.entry) := by
  intro e he f hf hseq
  obtain ⟨a, ha, rfl⟩ := List.mem_map.1 he
  obtain ⟨b, hb, rfl⟩ := List.mem_map.1 hf
  rw [List.inj_on_of_nodup_map h.sequences ha hb hseq]

theorem Distinct.anyOrder (h : s.Distinct) (config : Config) (now : Instant) :
    s.AnyOrder config now where
  reopened := anyOrder_of_distinct ((drawnFrom_reopen s.image _ _).distinct h.entries)
  ledger := anyOrder_of_distinct ((drawnFrom_ofImage s.image _ _ now).distinct h.entries)
  roster := Roster.anyOrder _

theorem Distinct.rearranged (h : s.Distinct) (hsame : s.Rearranges s') : s'.Distinct where
  builds := (hsame.builds.map Build.id).nodup_iff.1 h.builds
  sequences := (hsame.builds.map Build.sequence).nodup_iff.1 h.sequences
  workers := (hsame.workers.map Worker.id).nodup_iff.1 h.workers

theorem restore_same (h : s.Distinct) (hsame : s.Rearranges s') (config : Config)
    (now : Instant) : (s.restore config now).Same (s'.restore config now) := by
  obtain ⟨hrecovered, hmatches⟩ :=
    matches_ofImage h.builds hsame.builds config.maxRetries config.retainedHistory now
  have hdrawn := drawnFrom_ofImage s.image config.maxRetries config.retainedHistory now
  have hroster := Roster.ofRecords_eq_of_perm h.workers hsame.workers
  rw [hsame.rest]
  exact {
    recovered := hrecovered
    exported := hmatches.toImage_eq
    roster := hroster
    drained := hmatches.drain_eq hdrawn h.entries
    queue := hmatches.drainQueued_eq hdrawn h.entries }

end Snapshot

/-! ## Pools in any order -/

namespace Course

variable {c : Course}

/-- What a pool tells of its builds, whatever order it goes through them in, is told in the order of
their submission. -/
structure AnyOrder (c : Course) : Prop where
  ledger : c.pool.ledger.AnyOrder
  roster : c.pool.roster.AnyOrder
  listed : ∀ status limit, c.pool.ledger.list status limit =
    ((c.pool.ledger.retained c.given).filter fun b => status.all (b.status == ·)).take limit
  exported : c.pool.ledger.toImage.builds = c.pool.ledger.retained c.given
  /-- The builds that are with workers lose them in this order in a restart. -/
  recovered : ∀ maxRetries historyLimit,
    (reopen c.pool.ledger.toImage maxRetries historyLimit).AnyOrder ∧
      (reopen c.pool.ledger.toImage maxRetries historyLimit).inFlight =
        ((c.pool.ledger.retained c.given).filter (·.status.holdsWorker)).filterMap
          fun b => b.worker.map (b.id, ·)

theorem Sound.anyOrder (h : c.Sound) : c.AnyOrder := by
  have hrecords := h.pool.ledger.records
  have hdistinct := hrecords.distinct
  exact {
    ledger := anyOrder_of_distinct hdistinct
    roster := Roster.anyOrder _
    listed := fun status limit =>
      congrArg (List.take limit) (bySequence_filter hrecords h.fresh _)
    exported := by
      have hall := bySequence_filter hrecords h.fresh fun _ => true
      rw [List.filter_true, List.filter_true] at hall
      exact hall
    recovered := fun maxRetries historyLimit => by
      constructor
      · apply anyOrder_of_distinct
        rw [builds_reopen]
        exact hdistinct
      · rw [inFlight_reopen, inFlight, bySequence_filter hrecords h.fresh] }

end Course

/-- No order in which a file lists builds and workers, and no order in which a pool goes through
them, makes a difference. -/
theorem orders_immaterial :
    (∀ (s s' : Snapshot) (config : Config) (now : Instant), s.Distinct → s.Rearranges s' →
      (s.restore config now).Same (s'.restore config now) ∧ s.AnyOrder config now ∧
        s'.AnyOrder config now) ∧
    ∀ c : Course, c.Reachable → c.AnyOrder :=
  ⟨fun _ _ config now h hsame => ⟨Snapshot.restore_same h hsame config now,
    h.anyOrder config now, (h.rearranged hsame).anyOrder config now⟩,
    fun _ h => h.sound.anyOrder⟩

/-- A snapshot with a build that waits, and two builds that are with one worker. -/
def oneWaiting : Snapshot :=
  let submitted := fun (id : String) (sequence : Nat) =>
    Build.ofRequest { project := "p", task := "t" } ⟨id⟩ sequence ⟨0, 0⟩
  { version := Snapshot.currentVersion
    savedAt := ⟨2, 0⟩
    image := { builds := [(submitted "a" 3).assignTo ⟨"w"⟩ ⟨1, 0⟩,
      (submitted "b" 1).assignTo ⟨"w"⟩ ⟨1, 0⟩, submitted "c" 2] }
    workers := [Worker.ofInfo { id := ⟨"w"⟩, address := "x", capacity := 2 } ⟨0, 0⟩,
      Worker.ofInfo { id := ⟨"v"⟩, address := "y", capacity := 1 } ⟨0, 0⟩] }

def oneWaitingTurned : Snapshot :=
  { oneWaiting with
    image.builds := oneWaiting.image.builds.reverse
    workers := oneWaiting.workers.reverse }

theorem rearranges_oneWaiting : oneWaiting.Rearranges oneWaitingTurned where
  builds := (List.reverse_perm _).symm
  workers := (List.reverse_perm _).symm
  rest := rfl

theorem orders_immaterial_oneWaiting :
    oneWaiting.Distinct ∧ oneWaiting.Rearranges oneWaitingTurned ∧
      (oneWaiting.restore {} ⟨3, 0⟩).Same (oneWaitingTurned.restore {} ⟨3, 0⟩) ∧
      Course.twoBuilds.Reachable ∧ Course.twoBuilds.AnyOrder := by
  have hdistinct : oneWaiting.Distinct := ⟨by decide, by decide, by decide⟩
  have hrestored :=
    orders_immaterial.1 oneWaiting oneWaitingTurned {} ⟨3, 0⟩ hdistinct rearranges_oneWaiting
  have hpool := orders_immaterial.2 Course.twoBuilds Course.reachable_twoBuilds
  exact ⟨hdistinct, rearranges_oneWaiting, hrestored.1, Course.reachable_twoBuilds, hpool⟩

end BuildPool
