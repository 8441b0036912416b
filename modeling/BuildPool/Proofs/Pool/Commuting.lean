import BuildPool.Proofs.Ledger.Commuting
import BuildPool.Proofs.Pool.Repeats
import BuildPool.Proofs.Steps

/-!
# Operations on two builds

What comes in about one open build and what comes in about another can come in either order, though
both builds may be with one worker, end at the same time and share queue, counters and history. Each
operation is answered from the record of its own build, and what it writes is a note on that build
and a slot that becomes free.
-/

namespace BuildPool

open BuildPool.Time Ledger

/-! ## Slots of two builds -/

namespace Worker

/-- The status follows the builds that are held last. -/
theorem refresh_refresh (w : Worker) (active : BuildIds) :
    { w.refresh with active }.refresh = { w with active }.refresh := by
  by_cases hon : w.isOnline = true
  · have hstill : ({ w.refresh with active } : Worker).isOnline = true :=
      w.refresh_isOnline.trans hon
    have hsame : ({ w with active } : Worker).isOnline = true := hon
    rw [refresh, if_pos hstill, refresh, if_pos hon, refresh, if_pos hsame]
    rfl
  · have hoff : w.refresh = w := if_neg hon
    rw [hoff]

theorem release_comm (w : Worker) (a b : BuildId) :
    (w.release a).release b = (w.release b).release a := by
  have htwice : ∀ x y : BuildId, (w.release x).release y =
      { w with active := (w.active.erase x.text).erase y.text }.refresh := by
    intro x y
    have hagain := refresh_refresh { w with active := w.active.erase x.text }
    rw [release, release_active, release, hagain]
  rw [htwice, htwice, Catalog.erase_comm]

end Worker

namespace Roster

variable {r : Roster} {b : BuildId} {w x : WorkerId}

/-- Frees the slot that a build leaves, if it leaves one. -/
def vacate (r : Roster) (b : BuildId) : Option WorkerId → Roster
  | none => r
  | some w =>
    match r.find? w with
    | some worker => r.put (worker.release b)
    | none => r

theorem find?_vacate (r : Roster) (b : BuildId) (w x : WorkerId) :
    (r.vacate b (some w)).find? x =
      if x = w then (r.find? x).map (Worker.release · b) else r.find? x := by
  unfold vacate
  dsimp only
  split
  · rename_i worker hworker
    have hid : (worker.release b).id = w := by
      rw [Worker.id, Worker.release_info]
      exact id_of_find? hworker
    rw [find?_put, hid]
    split
    · rename_i hx
      rw [hx, hworker]
      rfl
    · rfl
  · rename_i hnone
    split
    · rename_i hx
      rw [hx, hnone]
      rfl
    · rfl

theorem vacate_comm (r : Roster) (a b : BuildId) (v w : Option WorkerId) :
    (r.vacate a v).vacate b w = (r.vacate b w).vacate a v := by
  match v, w with
  | none, _ => rfl
  | some _, none => rfl
  | some v, some w =>
    apply ext_find?
    intro x
    simp only [find?_vacate]
    by_cases hv : x = v
    · by_cases hw : x = w
      · simp only [if_pos hv, if_pos hw, Option.map_map]
        congr 1
        funext worker
        exact worker.release_comm a b
      · simp only [if_pos hv, if_neg hw]
    · simp only [if_neg hv]

end Roster

namespace Ledger

def HasEnded (l : Ledger) (id : BuildId) : Prop := ∃ b, l.find? id = some b ∧ b.isTerminal = true

end Ledger

/-! ## Operations on one build -/

/-- What clients, workers and the cache say of one build. -/
inductive OnBuild
  | cancel (id : BuildId)
  | complete (id : BuildId) (r : Report)
  | progress (id : BuildId) (w : WorkerId) (amount : Float)
  /-- The cache had the artifacts. -/
  | satisfy (id : BuildId) (artifacts : List String)
  | delivered (a : Assignment)
  | undelivered (a : Assignment)

def OnBuild.build : OnBuild → BuildId
  | cancel id | complete id _ | progress id _ _ | satisfy id _ => id
  | delivered a | undelivered a => a.build

inductive Answer
  | cancelled (answer : Cancellation)
  /-- Whether it was of use. -/
  | taken (yes : Bool)
deriving DecidableEq

namespace Pool

/-- The answer to an operation, and the pool after it. -/
def perform (p : Pool) (now : Instant) : OnBuild → Except Refusal Answer × Pool
  | .cancel id => Steps.settle p ((p.cancel now id).map fun (answer, q) => (.cancelled answer, q))
  | .complete id r =>
    Steps.settle p ((p.complete now id r).map fun (held, q) => (.taken held, q))
  | .progress id w amount =>
    Steps.settle p ((p.progress now id w amount).map fun (held, q) => (.taken held, q))
  | .satisfy id artifacts => (.ok (.taken (p.satisfy now id artifacts).1),
      (p.satisfy now id artifacts).2)
  | .delivered a => (.ok (.taken (p.ledger.acknowledge? a.build a.worker a.attempt).isSome),
      p.delivered now a)
  | .undelivered a => (.ok (.taken (p.ledger.rollback? a.build a.worker a.attempt).isSome),
      p.undelivered a)

end Pool

/-- What an operation comes to for the build that it finds. -/
structure Effect where
  answer : Except Refusal Answer
  note : Note
  /-- The worker that the build leaves. -/
  left : Option WorkerId := none

/-- The build stays as it is. -/
def Effect.nothing (b : Build) (answer : Except Refusal Answer) : Effect where
  answer
  note := { record := b }

namespace OnBuild

/-- An operation that does not fit the build changes nothing. -/
def effect (now : Instant) (b : Build) : OnBuild → Effect
  | cancel _ =>
    ⟨.ok (.cancelled ⟨.cancelled, b.worker, true⟩),
      { record := b.finish .cancelled (.failure cancelledReason) now }, b.worker⟩
  | complete _ r =>
    if b.heldBy r.worker then
      ⟨.ok (.taken true), { record := b.finish (verdict r).1 (verdict r).2 now }, some r.worker⟩
    else .nothing b (.ok (.taken false))
  | progress _ w amount =>
    if amount.isFinite then
      if b.heldBy w then ⟨.ok (.taken true), { record := b.advance amount }, none⟩
      else .nothing b (.ok (.taken false))
    else .nothing b (.error (.invalidRequest "progress must be a number"))
  | satisfy _ artifacts =>
    if b.status = .queued then
      ⟨.ok (.taken true),
        { record := b.finish .completed { success := true, artifacts } now, hits := 1 }, none⟩
    else .nothing b (.ok (.taken false))
  | delivered a =>
    if b.awaits a.worker a.attempt then ⟨.ok (.taken true), { record := b.start }, none⟩
    else .nothing b (.ok (.taken false))
  | undelivered a =>
    if b.awaits a.worker a.attempt then
      ⟨.ok (.taken true), { record := b.requeue, requeued := true }, some a.worker⟩
    else .nothing b (.ok (.taken false))

theorem effect_id (op : OnBuild) (now : Instant) (b : Build) :
    (op.effect now b).note.record.id = b.id := by
  cases op <;> simp only [effect]
  case cancel => rfl
  case progress w amount =>
    split
    · split
      · exact b.advance_id amount
      · rfl
    · rfl
  all_goals
    split
    · rfl
    · rfl

end OnBuild

/-! ## One operation -/

namespace Pool

/-- A sound pool that keeps to its limit of builds that ended has this build, which did not end. -/
structure HasOpen (given : List BuildId) (p : Pool) (b : Build) : Prop where
  sound : p.Sound given
  found : p.ledger.find? b.id = some b
  opened : b.isTerminal = false
  fits : p.ledger.history.length ≤ p.ledger.historyLimit
  limit : 1 ≤ p.ledger.historyLimit

/-- The answer is that of the effect, and so are both tables. -/
structure Shows (p : Pool) (b : Build) (e : Effect) (result : Except Refusal Answer × Pool) :
    Prop where
  answer : result.1 = e.answer
  ledger : result.2.ledger = p.ledger.write e.note
  roster : result.2.roster = p.roster.vacate b.id e.left

variable {given : List BuildId} {p : Pool} {b b' : Build} {o o' : OnBuild} {now : Instant}

theorem HasOpen.ends (h : HasOpen given p b) : p.ledger.ListsEnds :=
  h.sound.ledger.records.listsEnds

theorem roster_free (p : Pool) (w : WorkerId) (b : BuildId) :
    (p.free w b).roster = p.roster.vacate b (some w) := by
  unfold free Roster.release Roster.require Roster.vacate
  cases hw : p.roster.find? w with
  | none => simp only [hw]; rfl
  | some worker => simp only [hw]; rfl

theorem HasOpen.shows_nothing (h : HasOpen given p b) (answer : Except Refusal Answer) :
    p.Shows b (.nothing b answer) (answer, p) where
  answer := rfl
  ledger := (write_self h.fits h.found h.opened).symm
  roster := rfl

theorem HasOpen.shows_cancel (h : HasOpen given p b) (now : Instant) :
    p.Shows b (OnBuild.effect now b (.cancel b.id)) (p.perform now (.cancel b.id)) := by
  let l := p.ledger.archive (b.finish .cancelled (.failure cancelledReason) now)
  have hledger : p.ledger.cancel b.id now = .ok (⟨.cancelled, b.worker, true⟩, l) := by
    rw [Ledger.cancel, require, h.found]
    exact if_neg (by rw [h.opened]; exact Bool.false_ne_true)
  have hcancel : ∃ q : Pool, p.cancel now b.id = .ok (⟨.cancelled, b.worker, true⟩, q) ∧
      q.ledger = l ∧ q.roster = p.roster.vacate b.id b.worker := by
    rw [Pool.cancel, hledger]
    refine ⟨_, rfl, ?_⟩
    rw [(tables_announceCancellation _ _ _ _).1, (tables_announceCancellation _ _ _ _).2]
    cases b.worker with
    | none => exact ⟨rfl, rfl⟩
    | some w => exact ⟨ledger_free _ _ _, roster_free _ _ _⟩
  obtain ⟨q, hq, hl, hr⟩ := hcancel
  rw [perform, hq]
  exact ⟨rfl, hl.trans (write_archive rfl 0).symm, hr⟩

theorem HasOpen.shows_complete (h : HasOpen given p b) (now : Instant) (r : Report) :
    p.Shows b (OnBuild.effect now b (.complete b.id r)) (p.perform now (.complete b.id r)) := by
  rw [perform, OnBuild.effect]
  by_cases hheld : b.heldBy r.worker = true
  · let c := b.finish (verdict r).1 (verdict r).2 now
    let q : Pool := { p with ledger := p.ledger.archive c }
    have hledger : p.ledger.complete b.id r now = .ok (some q.ledger) := by
      rw [Ledger.complete, require, h.found]
      exact if_pos hheld
    have hkept : q.ledger.find? b.id = some c :=
      find?_archive_self (c := c) h.ends h.found h.opened h.limit
    have hcomplete : p.complete now b.id r =
        .ok (true, (q.free r.worker b.id).announceCompletion now c) := by
      rw [Pool.complete, hledger]
      simp only [bind, Except.bind, hkept]
      rfl
    have hend : c.isTerminal = true := isTerminal_verdict r
    obtain ⟨hl, hr⟩ := tables_announceCompletion (q.free r.worker b.id) now c
    rw [ledger_free] at hl
    rw [roster_free] at hr
    rw [hcomplete, if_pos hheld]
    exact ⟨rfl, hl.trans (write_archive hend 0).symm, hr⟩
  · have hledger : p.ledger.complete b.id r now = .ok none := by
      rw [Ledger.complete, require, h.found]
      exact if_neg hheld
    have hcomplete : p.complete now b.id r = .ok (false, p) := by
      rw [Pool.complete, hledger]
      rfl
    rw [hcomplete, if_neg hheld]
    exact h.shows_nothing _

theorem HasOpen.shows_progress (h : HasOpen given p b) (now : Instant) (w : WorkerId)
    (amount : Float) :
    p.Shows b (OnBuild.effect now b (.progress b.id w amount))
      (p.perform now (.progress b.id w amount)) := by
  rw [perform, OnBuild.effect]
  by_cases hfinite : amount.isFinite = true
  · rw [if_pos hfinite]
    by_cases hheld : b.heldBy w = true
    · let l := p.ledger.put (b.advance amount)
      have hledger : p.ledger.progress b.id w amount = .ok (some l) := by
        rw [Ledger.progress, require, h.found]
        exact if_pos hheld
      have hwrite : p.ledger.write { record := b.advance amount } = l := by
        apply write_put h.fits
        apply Build.isTerminal_eq_false_of_holdsWorker
        exact Build.advance_holdsWorker (Build.heldBy_iff.1 hheld).1 amount
      have hprogress : ∃ q : Pool, p.progress now b.id w amount = .ok (true, q) ∧
          q.ledger = l ∧ q.roster = p.roster := by
        rw [Pool.progress, if_pos hfinite, hledger]
        simp only [bind, Except.bind]
        split
        · exact ⟨_, rfl, rfl, rfl⟩
        · exact ⟨_, rfl, rfl, rfl⟩
      obtain ⟨q, hq, hl, hr⟩ := hprogress
      rw [hq, if_pos hheld]
      exact ⟨rfl, hl.trans hwrite.symm, hr⟩
    · have hledger : p.ledger.progress b.id w amount = .ok none := by
        rw [Ledger.progress, require, h.found]
        exact if_neg hheld
      have hprogress : p.progress now b.id w amount = .ok (false, p) := by
        rw [Pool.progress, if_pos hfinite, hledger]
        rfl
      rw [hprogress, if_neg hheld]
      exact h.shows_nothing _
  · have hprogress : p.progress now b.id w amount =
        .error (.invalidRequest "progress must be a number") := if_neg hfinite
    rw [hprogress, if_neg hfinite]
    exact h.shows_nothing _

theorem HasOpen.shows_satisfy (h : HasOpen given p b) (now : Instant) (artifacts : List String) :
    p.Shows b (OnBuild.effect now b (.satisfy b.id artifacts))
      (p.perform now (.satisfy b.id artifacts)) := by
  rw [perform, OnBuild.effect, Pool.satisfy, Ledger.satisfy?, h.found]
  by_cases hq : b.status = .queued
  · let c := b.finish .completed { success := true, artifacts } now
    simp only [if_pos hq]
    exact ⟨rfl, (write_archive (b := c) rfl 1).symm, rfl⟩
  · simp only [if_neg hq]
    exact h.shows_nothing _

theorem HasOpen.shows_delivered {a : Assignment} (h : HasOpen given p b) (hid : a.build = b.id)
    (now : Instant) :
    p.Shows b (OnBuild.effect now b (.delivered a)) (p.perform now (.delivered a)) := by
  rw [perform, OnBuild.effect, Pool.delivered, acknowledge?, hid, h.found]
  by_cases hawaits : b.awaits a.worker a.attempt = true
  · simp only [if_pos hawaits]
    exact ⟨rfl, (write_put h.fits rfl).symm, rfl⟩
  · simp only [if_neg hawaits]
    exact h.shows_nothing _

theorem HasOpen.shows_undelivered {a : Assignment} (h : HasOpen given p b) (hid : a.build = b.id)
    (now : Instant) :
    p.Shows b (OnBuild.effect now b (.undelivered a)) (p.perform now (.undelivered a)) := by
  rw [perform, OnBuild.effect, Pool.undelivered, rollback?, hid, h.found]
  by_cases hawaits : b.awaits a.worker a.attempt = true
  · simp only [if_pos hawaits]
    refine ⟨rfl, ?_, roster_free _ _ _⟩
    rw [ledger_free]
    exact (write_requeue h.fits rfl).symm
  · simp only [if_neg hawaits]
    exact h.shows_nothing _

/-- Every operation on an open build comes to its effect. -/
theorem HasOpen.shows (h : HasOpen given p b) {op : OnBuild} (hid : op.build = b.id) (now : Instant) :
    p.Shows b (op.effect now b) (p.perform now op) := by
  cases op with
  | cancel id =>
    obtain rfl : id = b.id := hid
    exact h.shows_cancel now
  | complete id r =>
    obtain rfl : id = b.id := hid
    exact h.shows_complete now r
  | progress id w amount =>
    obtain rfl : id = b.id := hid
    exact h.shows_progress now w amount
  | satisfy id artifacts =>
    obtain rfl : id = b.id := hid
    exact h.shows_satisfy now artifacts
  | delivered a => exact h.shows_delivered hid now
  | undelivered a => exact h.shows_undelivered hid now

/-! ## Two operations -/

def both (p : Pool) (now : Instant) (o o' : OnBuild) : Pool :=
  ((p.perform now o).2.perform now o').2

theorem sound_settle {α : Type} {result : Except Refusal (α × Pool)}
    (h : p.Sound given) (hok : ∀ a q, result = .ok (a, q) → q.Sound given) (f : α → Answer) :
    (Steps.settle p (result.map fun (a, q) => (f a, q))).2.Sound given := by
  cases result with
  | error e => exact h
  | ok r => exact hok r.1 r.2 rfl

theorem settle_of_idle {α : Type} {answer : α → Prop} {result : Except Refusal (α × Pool)}
    (h : p.Idle answer result) (f : α → Answer) :
    (Steps.settle p (result.map fun (a, q) => (f a, q))).2 = p := by
  cases result with
  | error e => rfl
  | ok r => exact (h r.1 r.2 rfl).2

theorem sound_perform (h : p.Sound given) (now : Instant)
    (op : OnBuild) : (p.perform now op).2.Sound given := by
  cases op with
  | cancel id => exact sound_settle h (fun _ _ hs => sound_cancel h hs) _
  | complete id r => exact sound_settle h (fun _ _ hs => sound_complete h hs) _
  | progress id w amount => exact sound_settle h (fun _ _ hs => sound_progress h hs) _
  | satisfy id artifacts => exact sound_satisfy h now id artifacts
  | delivered a => exact sound_delivered h now a
  | undelivered a => exact sound_undelivered h a

/-- An operation on one build leaves the other open builds as they are. -/
theorem HasOpen.after {op : OnBuild} (h : HasOpen given p b)
    (h' : HasOpen given p b') (hne : b'.id ≠ b.id) (hid : op.build = b.id) (now : Instant) :
    HasOpen given (p.perform now op).2 b' := by
  have hledger := (h.shows hid now).ledger
  have hother : b'.id ≠ (op.effect now b).note.record.id := by
    rw [op.effect_id]
    exact hne
  constructor
  case sound => exact sound_perform h.sound now op
  case found =>
    rw [hledger]
    exact find?_write_of_ne h'.ends h'.limit h'.found h'.opened hother
  case opened => exact h'.opened
  case fits =>
    rw [hledger]
    exact (within_evict (l := p.ledger.note (op.effect now b).note) rfl rfl).fits
  case limit =>
    rw [hledger]
    exact h'.limit

/-- In either order two operations get the same answers and come to the same. -/
structure Commute (p : Pool) (now : Instant) (o o' : OnBuild) : Prop where
  first : ((p.perform now o').2.perform now o).1 = (p.perform now o).1
  second : ((p.perform now o).2.perform now o').1 = (p.perform now o').1
  builds : (p.both now o o').ledger.builds = (p.both now o' o).ledger.builds
  roster : (p.both now o o').roster = (p.both now o' o).roster
  counters : (p.both now o o').ledger.counters = (p.both now o' o).ledger.counters
  drained : (p.both now o o').ledger.drainQueued = (p.both now o' o).ledger.drainQueued
  /-- If both builds ended, they are the last of the history, in the order of the operations. -/
  history : (p.both now o o').ledger.history = (p.both now o' o).ledger.history ∨
    (p.both now o o').ledger.HasEnded o.build ∧ (p.both now o o').ledger.HasEnded o'.build ∧
      ∃ kept, (p.both now o o').ledger.history = kept ++ [o.build, o'.build] ∧
        (p.both now o' o).ledger.history = kept ++ [o'.build, o.build]

/-- The first operation leaves what the second one looks at. -/
theorem tables_both (h : HasOpen given p b) (h' : HasOpen given p b') (hne : b'.id ≠ b.id)
    (hid : o.build = b.id) (hid' : o'.build = b'.id) (now : Instant) :
    ((p.perform now o).2.perform now o').1 = (o'.effect now b').answer ∧
      (p.both now o o').ledger =
        (p.ledger.write (o.effect now b).note).write (o'.effect now b').note ∧
      (p.both now o o').roster =
        (p.roster.vacate b.id (o.effect now b).left).vacate b'.id (o'.effect now b').left := by
  have hfirst := h.shows hid now
  have hsecond := (h.after h' hne hid now).shows hid' now
  refine ⟨hsecond.answer, ?_, ?_⟩
  · rw [both, hsecond.ledger, hfirst.ledger]
  · rw [both, hsecond.roster, hfirst.roster]

theorem HasOpen.commute (h : HasOpen given p b) (h' : HasOpen given p b') (hne : b'.id ≠ b.id)
    (hid : o.build = b.id) (hid' : o'.build = b'.id) (hlimit : 2 ≤ p.ledger.historyLimit)
    (now : Instant) : p.Commute now o o' := by
  obtain ⟨hsecond, hledger, hroster⟩ := tables_both h h' hne hid hid' now
  obtain ⟨hfirst, hledger', hroster'⟩ := tables_both h' h hne.symm hid' hid now
  have hsame := o.effect_id now b
  have hsame' := o'.effect_id now b'
  have hbuilds : (p.both now o o').ledger.builds = (p.both now o' o).ledger.builds := by
    rw [hledger, hledger']
    apply builds_write_comm hlimit
    · rw [hsame]
      exact h.ends.not_mem_history h.found h.opened
    · rw [hsame']
      exact h'.ends.not_mem_history h'.found h'.opened
    · rw [hsame, hsame']
      exact hne.symm
  have hboth := sound_perform (sound_perform h.sound now o) now o'
  have hboth' := sound_perform (sound_perform h.sound now o') now o
  constructor
  case first => rw [hfirst, (h.shows hid now).answer]
  case second => rw [hsecond, (h'.shows hid' now).answer]
  case builds => exact hbuilds
  case roster => rw [hroster, hroster', Roster.vacate_comm]
  case counters =>
    rw [hledger, hledger']
    exact Note.count_comm _ _ _
  case drained => exact drainQueued_of_builds hboth.ledger hboth'.ledger hbuilds
  case history =>
    have hcomm := history_write_comm hlimit (o.effect now b).note (o'.effect now b').note
    rw [← hledger, ← hledger', hsame, hsame', ← hid, ← hid'] at hcomm
    rcases hcomm with heq | ⟨kept, hkept, hkept'⟩
    · exact .inl heq
    · have hended := hboth.ledger.records.ended
      refine .inr ⟨(hended _).1 ?_, (hended _).1 ?_, kept, hkept, hkept'⟩
      · change o.build ∈ (p.both now o o').ledger.history
        simp [hkept]
      · change o'.build ∈ (p.both now o o').ledger.history
        simp [hkept]

end Pool

namespace Course

variable {c : Course}

/-- Operations on two open builds can come in either order. -/
theorem operations_commute (h : c.Reachable) (hlimit : 2 ≤ c.pool.config.retainedHistory)
    {o o' : OnBuild} (hne : o.build ≠ o'.build) (hopen : c.pool.ledger.IsOpen o.build)
    (hopen' : c.pool.ledger.IsOpen o'.build) (now : Instant) : c.pool.Commute now o o' := by
  have hsound := h.sound.pool
  have hlimited := h.limited
  have hhas : ∀ b, c.pool.ledger.find? b.id = some b → b.isTerminal = false →
      Pool.HasOpen c.given c.pool b := by
    intro b hb hopen
    refine ⟨hsound, hb, hopen, ?_, ?_⟩
    · rw [hlimited.limit]
      exact hlimited.fits
    · exact hlimited.one_le_historyLimit
  rw [← hlimited.limit] at hlimit
  obtain ⟨b, hb, hopen⟩ := hopen
  obtain ⟨b', hb', hopen'⟩ := hopen'
  have hid := id_of_find? hb
  have hid' := id_of_find? hb'
  rw [← hid] at hb hne
  rw [← hid'] at hb' hne
  exact (hhas b hb hopen).commute (hhas b' hb' hopen') hne.symm hid.symm hid'.symm hlimit now

/-- A second worker has two slots, and two builds take them. -/
def fullWorker : Course :=
  (((twoBuilds.after (.pass ⟨3, 0⟩)).after
    (.register ⟨4, 0⟩ { id := ⟨"v"⟩, address := "y", capacity := 2 })).after
    (.submit ⟨5, 0⟩ { project := "p", task := "t" } ⟨"c"⟩)).after
    (.pass ⟨6, 0⟩)

theorem reachable_fullWorker : fullWorker.Reachable := by
  have hfirst := reachable_twoBuilds.after (.pass ⟨3, 0⟩) trivial
  have hsecond := hfirst.after
    (.register ⟨4, 0⟩ { id := ⟨"v"⟩, address := "y", capacity := 2 }) trivial
  have hnew : (⟨"c"⟩ : BuildId) ∉ [⟨"a"⟩, ⟨"b"⟩] := by decide
  have hthird := hsecond.after (.submit ⟨5, 0⟩ { project := "p", task := "t" } ⟨"c"⟩) hnew
  exact hthird.after (.pass ⟨6, 0⟩) trivial

/-- Of the two builds of one worker one ends and the other was never delivered. -/
theorem operations_commute_fullWorker :
    let reported : OnBuild := .complete ⟨"c"⟩ { worker := ⟨"v"⟩, success := true }
    let failed : OnBuild := .undelivered ⟨⟨"a"⟩, ⟨"v"⟩, 1, "y", ⟨⟨"a"⟩, "t", "p", .empty, 3600⟩⟩
    (fullWorker.pool.roster.find? ⟨"v"⟩).map Worker.status = some .busy ∧
      ((fullWorker.pool.both ⟨7, 0⟩ reported failed).roster.find? ⟨"v"⟩).map Worker.status =
        some .available ∧
      (fullWorker.pool.both ⟨7, 0⟩ reported failed).ledger.history = [⟨"c"⟩] ∧
      (fullWorker.pool.both ⟨7, 0⟩ reported failed).ledger.drainQueued = [⟨⟨"a"⟩, 0, 1⟩] ∧
      fullWorker.pool.Commute ⟨7, 0⟩ reported failed := by
  have hlimit : 2 ≤ fullWorker.pool.config.retainedHistory := by decide
  exact ⟨rfl, rfl, rfl, rfl,
    operations_commute reachable_fullWorker hlimit (by decide) ⟨_, rfl, rfl⟩ ⟨_, rfl, rfl⟩ ⟨7, 0⟩⟩

end Course

end BuildPool
