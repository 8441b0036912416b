import BuildPool.Proofs.Number.UnitRange
import BuildPool.Proofs.Pool.Evolution
import BuildPool.Proofs.Pool.Restarts
import BuildPool.Proofs.Wire.Events

/-!
# Captured pools

Instants come from the clock, and numbers from workers, of whose progress only finite numbers are
taken. So what a pool keeps can be written down, and a pool that is captured, saved and loaded comes
back as it was.
-/

namespace BuildPool

open BuildPool.Json BuildPool.Number BuildPool.Time Ledger

/-! ## Builds -/

/-- The instants have dates, and the progress is a number from 0 to 1. -/
structure Build.Expressible (b : Build) : Prop where
  progress : InUnit b.progress
  instants : ∀ t ∈ b.instants, t.Valid

namespace Build

variable {b : Build} {now : Instant}

theorem expressible_iff : b.Expressible ↔ InUnit b.progress ∧ b.submittedAt.Valid ∧
    (∀ t ∈ b.startedAt, t.Valid) ∧ ∀ t ∈ b.finishedAt, t.Valid := by
  have hinstants : (∀ t ∈ b.instants, t.Valid) ↔ b.submittedAt.Valid ∧
      (∀ t ∈ b.startedAt, t.Valid) ∧ ∀ t ∈ b.finishedAt, t.Valid := by
    simp only [instants, List.forall_mem_cons, List.forall_mem_append, Option.mem_toList,
      Option.mem_def]
  exact ⟨fun h => ⟨h.progress, hinstants.1 h.instants⟩, fun h => ⟨h.1, hinstants.2 h.2⟩⟩

theorem forall_mem_none {P : Instant → Prop} : ∀ t ∈ (none : Option Instant), P t := nofun

theorem forall_mem_some (h : now.Valid) : ∀ t ∈ some now, t.Valid := by
  rintro t ⟨⟩
  exact h

namespace Expressible

theorem ofRequest (h : now.Valid) (r : Request) (id : BuildId) (sequence : Nat) :
    (Build.ofRequest r id sequence now).Expressible :=
  expressible_iff.2 ⟨inUnit_zero, h, forall_mem_none, forall_mem_none⟩

theorem assignTo (h : b.Expressible) (w : WorkerId) (hnow : now.Valid) :
    (b.assignTo w now).Expressible := by
  obtain ⟨-, hsubmitted, -, hfinished⟩ := expressible_iff.1 h
  exact expressible_iff.2 ⟨inUnit_zero, hsubmitted, forall_mem_some hnow, hfinished⟩

theorem requeue (h : b.Expressible) (retries : Nat) :
    { b with retries }.requeue.Expressible := by
  obtain ⟨-, hsubmitted, -, hfinished⟩ := expressible_iff.1 h
  exact expressible_iff.2 ⟨inUnit_zero, hsubmitted, forall_mem_none, hfinished⟩

theorem advance (h : b.Expressible) {amount : Float} (hamount : amount.isFinite = true) :
    (b.advance amount).Expressible := by
  obtain ⟨-, hrest⟩ := expressible_iff.1 h
  unfold Build.advance
  split
  · exact expressible_iff.2 ⟨inUnit_clampUnit hamount, hrest⟩
  · exact expressible_iff.2 ⟨inUnit_clampUnit hamount, hrest⟩

theorem finish (h : b.Expressible) (status : BuildStatus) (outcome : Outcome) (hnow : now.Valid) :
    (b.finish status outcome now).Expressible := by
  obtain ⟨hprogress, hsubmitted, hstarted, -⟩ := expressible_iff.1 h
  refine expressible_iff.2 ⟨?_, hsubmitted, hstarted, forall_mem_some hnow⟩
  unfold Build.finish
  dsimp only
  split
  · exact inUnit_one
  · exact hprogress

end Expressible

end Build

namespace Ledger

variable {given : List BuildId} {l : Ledger} {now : Instant}

def Expressible (l : Ledger) : Prop := ∀ id b, l.find? id = some b → b.Expressible

theorem Expressible.put (h : l.Expressible) {b : Build} (hb : b.Expressible) :
    (l.put b).Expressible :=
  forall_find?_put (P := fun _ b => b.Expressible) h hb

theorem Expressible.evict (h : l.Expressible) : l.evict.Expressible :=
  forall_find?_evict (P := fun _ b => b.Expressible) h

theorem Expressible.archive (h : l.Expressible) {b : Build} (hb : b.Expressible) :
    (l.archive b).Expressible :=
  Expressible.evict (h.put hb)

theorem Expressible.lose (h : l.Expressible) (id : BuildId) (w : WorkerId) (hnow : now.Valid) :
    (l.lose id w now).2.Expressible := by
  rcases lose_cases l id w now with ⟨-, heq⟩ | ⟨b, hb, -, ⟨-, heq⟩ | ⟨-, heq⟩⟩
  · rw [heq]
    exact h
  · rw [heq]
    have hspent : { b with retries := l.maxRetries }.Expressible :=
      ⟨(h id b hb).progress, (h id b hb).instants⟩
    exact h.archive (hspent.finish .failed _ hnow)
  · rw [heq]
    exact h.put ((h id b hb).requeue _)

theorem Expressible.loseAll (hnow : now.Valid) (pairs : List (BuildId × WorkerId))
    (h : l.Expressible) : (loseAll now pairs l).2.Expressible := by
  induction pairs generalizing l with
  | nil => exact h
  | cons pair rest ih =>
    obtain ⟨id, w⟩ := pair
    rw [loseAll_cons]
    exact ih (h.lose id w hnow)

theorem Expressible.give (h : l.Expressible) (hnow : now.Valid) {placed : List (Build × Worker)}
    (waits : ∀ x ∈ placed, l.find? x.1.id = some x.1 ∧ x.1.status = .queued)
    (once : (placed.map fun x => x.1.id).Nodup) : (give now placed l).Expressible := by
  intro id b hb
  rcases find?_give now waits once id with ⟨x, -, -, hx, -, hgiven⟩ | hsame
  · rw [hgiven] at hb
    cases hb
    exact (h id x.1 hx).assignTo x.2.id hnow
  · rw [hsame] at hb
    exact h id b hb

end Ledger

/-! ## Workers -/

/-- The instants have dates, and the figures are numbers. -/
structure Worker.Expressible (w : Worker) : Prop where
  instants : ∀ t ∈ w.instants, t.Valid
  numbers : ∀ f ∈ w.numbers, f.isFinite = true

namespace Worker

variable {w w' : Worker} {now : Instant}

/-- It is a matter of what the worker told about itself, and when. -/
theorem Expressible.of_particulars (h : w.Expressible) (heq : w'.particulars = w.particulars) :
    w'.Expressible := by
  simp only [particulars, Prod.mk.injEq] at heq
  obtain ⟨-, hheartbeat, hregistered, husage⟩ := heq
  constructor
  case instants =>
    rw [Worker.instants, hheartbeat, hregistered]
    exact h.instants
  case numbers =>
    rw [Worker.numbers, husage]
    exact h.numbers

theorem particulars_refresh (w : Worker) : w.refresh.particulars = w.particulars := by
  unfold refresh particulars
  split <;> rfl

theorem expressible_ofInfo (info : WorkerInfo) (hnow : now.Valid) :
    (ofInfo info now).Expressible where
  instants := by
    intro t ht
    have heq : ∀ x ∈ (ofInfo info now).instants, x = now := by simp [instants, ofInfo]
    rw [heq t ht]
    exact hnow
  numbers := by
    intro f hf
    have heq : ∀ x ∈ (ofInfo info now).numbers, x = 0 := by simp [numbers, ofInfo]
    rw [heq f hf]
    exact inUnit_zero.finite

theorem Expressible.beat (h : w.Expressible) {usage : Usage} (hnow : now.Valid)
    (hcpu : usage.cpu.isFinite = true) (hmemory : usage.memory.isFinite = true) :
    (w.beat usage now).Expressible := by
  have hnoted : { w with lastHeartbeat := now, usage }.Expressible := by
    have hregistered : w.registeredAt.Valid := h.instants _ (by simp [Worker.instants])
    exact ⟨by simp [Worker.instants, hnow, hregistered], by simp [Worker.numbers, hcpu, hmemory]⟩
  unfold Worker.beat
  split
  · exact hnoted
  · exact hnoted.of_particulars (particulars_refresh _)

end Worker

namespace Roster

variable {r r' : Roster} {w : WorkerId} {now : Instant}

def Expressible (r : Roster) : Prop := ∀ id w, r.find? id = some w → w.Expressible

theorem Expressible.put (h : r.Expressible) {worker : Worker} (hw : worker.Expressible) :
    (r.put worker).Expressible := by
  intro id x hx
  rw [find?_put] at hx
  split at hx
  · cases hx
    exact hw
  · exact h id x hx

/-- Nobody told anything new. -/
theorem Expressible.of_particulars (h : r.Expressible)
    (heq : ∀ id, (r'.find? id).map Worker.particulars = (r.find? id).map Worker.particulars) :
    r'.Expressible := by
  intro id x hx
  have hsame := heq id
  rw [hx, Option.map_some] at hsame
  obtain ⟨y, hy, hxy⟩ := Option.map_eq_some_iff.1 hsame.symm
  exact (h id y hy).of_particulars hxy.symm

theorem Expressible.release (h : r.Expressible) {b : BuildId} (hr : r.release w b = .ok r') :
    r'.Expressible := by
  obtain ⟨worker, hworker, rfl⟩ := release_eq_ok hr
  have hsame : (worker.release b).particulars = worker.particulars :=
    Worker.particulars_refresh { worker with active := worker.active.erase b.text }
  exact h.put ((h w worker hworker).of_particulars hsame)

end Roster

/-! ## Every operation -/

/-- The instant of an operation has a date. -/
def Op.Dated : Op → Prop
  | .submit now _ _ | .cancel now _ | .progress now _ _ _ | .complete now _ _ | .satisfy now _ _
  | .register now _ | .heartbeat now _ _ | .pass now | .delivered now _ | .scan now _
  | .restart now _ _ => now.Valid
  | .undelivered _ | .wake | .takeWakeUp | .takeSaveRequest => True

/-- What an operation brings along can be written down: its instant has a date, and the figures of a
heartbeat are numbers. -/
structure Op.Expressible (op : Op) : Prop where
  dated : op.Dated
  figures : ∀ now w usage, op = .heartbeat now w usage →
    usage.cpu.isFinite = true ∧ usage.memory.isFinite = true

theorem Op.Writes.expressible {op : Op} {given : List BuildId} {l l' : Ledger}
    (h : op.Writes given l l') (hop : op.Dated)
    (hprogress : ∀ now id w amount, op = .progress now id w amount → amount.isFinite = true)
    (hl : l.Expressible) : l'.Expressible := by
  cases h with
  | nothing => exact hl
  | submit fresh absent hs =>
    obtain ⟨-, rfl, rfl⟩ := submit_eq_ok absent hs
    exact hl.put (.ofRequest hop _ _ _)
  | cancel hs =>
    obtain ⟨b, hb, ⟨-, -, rfl⟩ | ⟨-, -, rfl⟩⟩ := cancel_eq_ok hs
    · exact hl
    · exact hl.archive ((hl _ b hb).finish _ _ hop)
  | progress hs =>
    obtain ⟨b, hb, -, rfl⟩ := progress_eq_ok hs
    exact hl.put ((hl _ b hb).advance (hprogress _ _ _ _ rfl))
  | complete hs =>
    obtain ⟨b, hb, -, rfl⟩ := complete_eq_ok hs
    exact hl.archive ((hl _ b hb).finish _ _ hop)
  | satisfy hs =>
    obtain ⟨b, hb, -, rfl⟩ := satisfy?_eq_some hs
    exact Ledger.Expressible.archive (l := { l with counters := _ }) hl
      ((hl _ b hb).finish _ _ hop)
  | pass backlog waits once => exact hl.give hop waits once
  | delivered hs =>
    obtain ⟨b, hb, -, rfl⟩ := acknowledge?_eq_some hs
    exact hl.put ⟨(hl _ b hb).progress, (hl _ b hb).instants⟩
  | undelivered hs =>
    obtain ⟨b, hb, -, rfl⟩ := rollback?_eq_some hs
    exact hl.put ((hl _ b hb).requeue b.retries)
  | scan pairs => exact hl.loseAll hop pairs
  | restart =>
    have hopen : ∀ maxRetries historyLimit,
        (reopen l.toImage maxRetries historyLimit).Expressible := by
      intro maxRetries historyLimit id b hb
      rw [find?_reopen] at hb
      exact hl id b hb
    exact ((hopen _ _).loseAll hop _).evict

namespace Pool

variable {p p' : Pool} {now : Instant}

/-- Everything that the pool keeps can be written down. -/
structure Expressible (p : Pool) : Prop where
  ledger : p.ledger.Expressible
  roster : p.roster.Expressible

theorem expressible_roster_free (h : p.roster.Expressible) (w : WorkerId) (b : BuildId) :
    (p.free w b).roster.Expressible := by
  unfold free
  split
  · rename_i hr
    exact h.release hr
  · exact h

end Pool

namespace Course

variable {c : Course} {op : Op}

theorem expressible_roster_enter {α : Type} {result : Except Refusal (α × Pool)}
    (h : c.pool.roster.Expressible)
    (hp : ∀ a p, result = .ok (a, p) → p.roster.Expressible) :
    (c.enter result).pool.roster.Expressible :=
  of_enter (P := fun p => p.roster.Expressible) h hp

theorem expressible_roster_after (hsound : c.Sound) (hop : op.Expressible)
    (h : c.pool.roster.Expressible) : (c.after op).pool.roster.Expressible := by
  cases op with
  | submit now r id =>
    simp only [after]
    split
    · rename_i b p hp
      obtain ⟨l, -, -, hroster⟩ := Pool.submitAs_eq_ok hp
      rw [hroster]
      exact h
    · exact h
  | cancel now id =>
    refine expressible_roster_enter h fun answer p hp => ?_
    obtain ⟨l, -, rfl⟩ := Pool.cancel_eq_ok hp
    split
    · rw [(Pool.tables_announceCancellation _ _ _ _).2]
      split
      · exact Pool.expressible_roster_free (p := { c.pool with ledger := l }) h _ id
      · exact h
    · exact h
  | progress now id w amount =>
    refine expressible_roster_enter h fun held p hp => ?_
    rcases Pool.progress_eq_ok hp with rfl | ⟨l, -, -, hroster⟩
    · exact h
    · rw [hroster]
      exact h
  | complete now id r =>
    refine expressible_roster_enter h fun held p hp => ?_
    rcases Pool.complete_eq_ok hp with rfl | ⟨l, -, -, hroster⟩
    · exact h
    · rw [hroster]
      exact Pool.expressible_roster_free (p := { c.pool with ledger := l }) h _ id
  | satisfy now id artifacts =>
    simp only [after, Pool.satisfy]
    split
    · exact h
    · exact h
  | register now info =>
    refine expressible_roster_enter h fun worker p hp => ?_
    obtain ⟨r, hr, -, rfl⟩ := Pool.register_eq_ok hp
    obtain ⟨-, -, rfl, heq⟩ := Roster.register_eq_ok hr
    rw [heq]
    exact h.put (Worker.expressible_ofInfo info hop.dated)
  | heartbeat now w usage =>
    refine expressible_roster_enter h fun u p hp => ?_
    obtain ⟨revived, r, hr, -, rfl⟩ := Pool.heartbeat_eq_ok (eq_ok_of_map hp)
    obtain ⟨worker, hworker, -, heq⟩ := Roster.heartbeat_eq_ok hr
    rw [heq]
    obtain ⟨hcpu, hmemory⟩ := hop.figures now w usage rfl
    exact h.put ((h w worker hworker).beat hop.dated hcpu hmemory)
  | pass now => exact h.of_particulars (hsound.pool.followsRule now).particulars
  | delivered now place =>
    simp only [after]
    split
    · rename_i a _
      simp only [Pool.delivered]
      split
      · exact h
      · exact h
    · exact h
  | undelivered place =>
    simp only [after]
    split
    · rename_i a _
      simp only [Pool.undelivered]
      split
      · exact h
      · rename_i l _
        exact Pool.expressible_roster_free (p := { c.pool with ledger := l }) h _ a.build
    · exact h
  | scan now judged =>
    obtain ⟨roster, heq, -, hroster⟩ := c.pool.scan_eq now judged
    simp only [after]
    rw [heq, (Pool.tables_announceScan _ _ _).2]
    refine h.of_particulars fun id => ?_
    rw [hroster]
    split
    · rw [Option.map_map]
      rfl
    · rfl
  | restart now config caching =>
    refine h.of_particulars fun id => ?_
    change ((Pool.recover config (c.pool.capture now) now).2.roster.find? id).map _ = _
    rw [Pool.roster_recover, Roster.find?_disconnectAll, Option.map_map]
    rfl
  | wake | takeWakeUp | takeSaveRequest => exact h

/-- A progress that is no number is refused. -/
theorem after_progress_of_not_finite {amount : Float} (h : ¬ amount.isFinite = true)
    (now : Instant) (id : BuildId) (w : WorkerId) : c.after (.progress now id w amount) = c := by
  have hrefused : c.pool.progress now id w amount =
      .error (.invalidRequest "progress must be a number") := if_neg h
  rw [after, hrefused]
  rfl

theorem expressible_ledger_after (hsound : c.Sound) (hadmits : c.Admits op) (hop : op.Dated)
    (h : c.pool.ledger.Expressible) : (c.after op).pool.ledger.Expressible := by
  by_cases hprogress : ∀ now id w amount, op = .progress now id w amount → amount.isFinite = true
  · exact (writes_after hsound hadmits).expressible hop hprogress h
  · push Not at hprogress
    obtain ⟨now, id, w, amount, rfl, hinfinite⟩ := hprogress
    rw [after_progress_of_not_finite hinfinite]
    exact h

/-- What the ledger keeps can be written down, whatever workers tell about themselves. -/
theorem Run.expressible_ledger {config : Config} {caching : Bool} {ops : List Op}
    (hrun : Run (start config caching) ops c) (hops : ∀ op ∈ ops, op.Dated) :
    c.pool.ledger.Expressible := by
  induction hrun with
  | nil =>
    intro id b hb
    cases hb
  | @snoc ops d op hrun hadmits ih =>
    simp only [List.forall_mem_append, List.forall_mem_singleton] at hops
    exact expressible_ledger_after (hrun.sound (sound_start config caching)) hadmits hops.2
      (ih hops.1)

theorem Run.expressible {config : Config} {caching : Bool} {ops : List Op}
    (hrun : Run (start config caching) ops c) (hops : ∀ op ∈ ops, op.Expressible) :
    c.pool.Expressible := by
  refine ⟨hrun.expressible_ledger fun op hop => (hops op hop).dated, ?_⟩
  induction hrun with
  | nil =>
    intro id w hw
    cases hw
  | @snoc ops d op hrun hadmits ih =>
    simp only [List.forall_mem_append, List.forall_mem_singleton] at hops
    exact expressible_roster_after (hrun.sound (sound_start config caching)) hops.2 (ih hops.1)

end Course

/-! ## Capture -/

namespace Pool

variable {p : Pool} {now : Instant}

theorem find?_of_mem_capture {b : Build} (h : b ∈ (p.capture now).image.builds) :
    p.ledger.find? b.id = some b :=
  mem_builds_iff.1 (Catalog.mem_toList.1 (mem_bySequence.1 h))

theorem find?_of_mem_workers {w : Worker} (h : w ∈ (p.capture now).workers) :
    p.roster.find? w.id = some w := Roster.find?_of_mem h

theorem Expressible.instants_capture (h : p.Expressible) (hnow : now.Valid) :
    ∀ t ∈ (p.capture now).instants, t.Valid := by
  simp only [Snapshot.instants, List.forall_mem_cons, List.forall_mem_append,
    List.forall_mem_flatMap]
  exact ⟨hnow, fun b hb => (h.ledger _ b (find?_of_mem_capture hb)).instants,
    fun w hw => (h.roster _ w (find?_of_mem_workers hw)).instants⟩

theorem Expressible.numbers_capture (h : p.Expressible) :
    ∀ f ∈ (p.capture now).numbers, f.isFinite = true := by
  simp only [Snapshot.numbers, List.forall_mem_append, List.forall_mem_map,
    List.forall_mem_flatMap]
  exact ⟨fun b hb => (h.ledger _ b (find?_of_mem_capture hb)).progress.finite,
    fun w hw => (h.roster _ w (find?_of_mem_workers hw)).numbers⟩

/-- The items of a catalog have different keys, and so have what the keys are made of. -/
theorem nodup_map_toList {α β : Type} {key : α → String} (c : Catalog α key) (get : α → β)
    (text : β → String) (hkey : ∀ a, key a = text (get a)) : (c.toList.map get).Nodup := by
  refine List.pairwise_map.2 (c.ordered.imp ?_)
  intro a b hlt heq
  rw [hkey, hkey, heq] at hlt
  exact String.lt_irrefl _ hlt

theorem nodup_builds_capture (p : Pool) (now : Instant) :
    ((p.capture now).image.builds.map Build.id).Nodup := by
  have hperm : (p.capture now).image.builds.Perm p.ledger.builds.toList :=
    List.mergeSort_perm _ _
  exact (hperm.map Build.id).nodup_iff.2
    (nodup_map_toList p.ledger.builds Build.id BuildId.text fun _ => rfl)

theorem nodup_workers_capture (p : Pool) (now : Instant) :
    ((p.capture now).workers.map Worker.id).Nodup :=
  nodup_map_toList p.roster.workers Worker.id WorkerId.text fun _ => rfl

end Pool

namespace Course

/-- Whatever is written down comes back as it was, if its numbers are read as they are written. What
a pool keeps can always be written down. -/
structure ComesBack (c : Course) (now : Instant) : Prop where
  request : ∀ r : Request, RoundTrips r
  report : ∀ r : Report, RoundTrips r
  task : ∀ t : Task, RoundTrips t
  info : ∀ w : WorkerInfo, RoundTrips w
  event : ∀ e : Event, e.time.Valid → RoundTrips e
  snapshot : ∀ s : Snapshot, s.Writable → s.ReadsNumbers → RoundTrips s
  finite : ∀ f ∈ (c.pool.capture now).numbers, f.isFinite = true
  builds : ((c.pool.capture now).image.builds.map Build.id).Nodup
  workers : ((c.pool.capture now).workers.map Worker.id).Nodup
  /-- The counts are kept in words, which they fit. -/
  loaded : (c.pool.capture now).image.InWords → (c.pool.capture now).ReadsNumbers →
    ∀ d : Snapshot.Disk, Snapshot.load (d.save (c.pool.capture now) .done).entry =
      .ok (some (c.pool.capture now))

variable {config : Config} {caching : Bool} {ops : List Op} {c : Course}

theorem comes_back (hrun : Run (start config caching) ops c) (hops : ∀ op ∈ ops, op.Expressible)
    {now : Instant} (hnow : now.Valid) : c.ComesBack now := by
  have hpool := hrun.expressible hops
  constructor
  case request => exact fun r => roundTrips (decode_of_tells (tells_encode r))
  case report => exact fun r => roundTrips (decode_of_tells (tells_encode r))
  case task => exact fun t => roundTrips (decode_of_tells (tells_encode t))
  case info => exact fun w => roundTrips (decode_of_tells (tells_encode w))
  case event => exact fun e he => roundTrips (Event.decode_encode he)
  case snapshot => exact fun s hs hread => Snapshot.roundTrips hs hread
  case finite => exact hpool.numbers_capture
  case builds => exact Pool.nodup_builds_capture c.pool now
  case workers => exact Pool.nodup_workers_capture c.pool now
  case loaded =>
    intro hwords hread d
    have hwritable : (c.pool.capture now).Writable :=
      ⟨hwords, hpool.instants_capture hnow, hpool.numbers_capture⟩
    exact Snapshot.load_save (Snapshot.roundTrips hwritable hread) (UInt32.le_refl _) d

/-- A worker with its figures is halfway through a build. -/
def halfway : List Op :=
  [.submit ⟨0, 0⟩ { project := "p", task := "t" } ⟨"a"⟩,
    .register ⟨1, 0⟩ { id := ⟨"w"⟩, address := "x", capacity := 1 },
    .heartbeat ⟨2, 0⟩ ⟨"w"⟩ { cpu := 0.25, memory := 0.1 },
    .pass ⟨3, 0⟩,
    .progress ⟨4, 0⟩ ⟨"a"⟩ ⟨"w"⟩ 0.5]

theorem comes_back_halfway :
    ((halfway.foldl Course.after (start {} false)).pool.capture ⟨5, 0⟩).numbers = [0.5, 0.25, 0.1] ∧
      Snapshot.load ((({} : Snapshot.Disk).save
        ((halfway.foldl Course.after (start {} false)).pool.capture ⟨5, 0⟩) .done).entry) =
        .ok (some ((halfway.foldl Course.after (start {} false)).pool.capture ⟨5, 0⟩)) := by
  have hvalid : ∀ n < 6, Instant.Valid ⟨(n : Nat), 0⟩ := by decide +kernel
  have hquarter : (0.25 : Float).isFinite = true := by decide +kernel
  have htenth : (0.1 : Float).isFinite = true := by decide +kernel
  have hdates : ∀ op ∈ halfway, op.Dated := by
    simp only [halfway, List.forall_mem_cons]
    exact ⟨hvalid 0 (by decide), hvalid 1 (by decide), hvalid 2 (by decide),
      hvalid 3 (by decide), hvalid 4 (by decide), List.forall_mem_nil _⟩
  have hops : ∀ op ∈ halfway, op.Expressible := by
    refine fun op hop => ⟨hdates op hop, ?_⟩
    rintro now w usage rfl
    simp only [halfway, List.mem_cons, List.not_mem_nil, or_false, false_or, reduceCtorEq,
      Op.heartbeat.injEq] at hop
    obtain ⟨-, -, rfl⟩ := hop
    exact ⟨hquarter, htenth⟩
  have hrun : Run (start {} false) halfway (halfway.foldl Course.after (start {} false)) :=
    run_foldl ⟨List.not_mem_nil, trivial, trivial, trivial, trivial, trivial⟩
  exact ⟨by decide +kernel, (comes_back hrun hops (hvalid 5 (by decide))).loaded
    (by decide +kernel) (by decide +kernel) {}⟩

end Course

end BuildPool
