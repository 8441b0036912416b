import BuildPool.Proofs.Ledger.Recent
import BuildPool.Proofs.Pool.Commuting

/-!
# Frames

What an operation on one build leaves alone. Apart from the build itself only the slot changes that
the build had, and if the build ends, the history may have no room any more for the builds that
ended first.
-/

namespace BuildPool

open BuildPool.Time

/-! ## Ledgers -/

namespace Ledger

/-- From one ledger to the next nothing changed but one build, and builds that the history has no
room for since that build ended. -/
structure Frame (id : BuildId) (limit : Nat) (l l' : Ledger) : Prop where
  builds : ∀ x, x ≠ id → l'.find? x =
    if x ∈ l.history ∧ x ∉ l'.history then none else l.find? x
  ended : ∀ x ∈ l.history, l.HasEnded x
  entered : l.IsOpen id → l'.HasEnded id → l'.history = (l.history ++ [id]).rtake limit
  kept : ¬ (l.IsOpen id ∧ l'.HasEnded id) → l'.history = l.history
  queue : l'.drainQueued.filter (fun e => e.build ≠ id) =
    l.drainQueued.filter fun e => e.build ≠ id

variable {given given' : List BuildId} {l l' : Ledger} {id : BuildId} {n : Note} {b : Build}

/-- The build is assigned or running. -/
def WithWorker (l : Ledger) (id : BuildId) : Prop :=
  ∃ b, l.find? id = some b ∧ b.status.holdsWorker = true

theorem HeldBy.withWorker {w : WorkerId} (h : l.HeldBy id w) : l.WithWorker id := by
  obtain ⟨b, hb, hheld⟩ := h
  exact ⟨b, hb, (Build.heldBy_iff.1 hheld).1⟩

/-- If only one build was written, the others come off the queue in the order of before. -/
theorem drainQueued_others (h : Sound given l) (h' : Sound given' l')
    (hstays : ∀ x, x ≠ id → l'.find? x = l.find? x ∨ (l'.find? x = none ∧ x ∈ l.history)) :
    l'.drainQueued.filter (fun e => e.build ≠ id) =
      l.drainQueued.filter fun e => e.build ≠ id := by
  have hbuilds : l'.queue.filter (fun b => b.id ≠ id) = l.queue.filter fun b => b.id ≠ id := by
    refine eq_of_ordered ((queue_ordered h'.records).filter _)
      ((queue_ordered h.records).filter _) fun b => ?_
    simp only [List.mem_filter, mem_queue_iff, decide_eq_true_eq]
    refine and_congr_left fun hne => and_congr_left fun hq => ?_
    rcases hstays b.id hne with hsame | ⟨hgone, hended⟩
    · rw [hsame]
    · obtain ⟨x, hx, hend⟩ := (h.records.ended b.id).1 hended
      rw [hgone, hx]
      refine ⟨nofun, ?_⟩
      rintro ⟨rfl⟩
      exact absurd hq (Build.ne_queued_of_isTerminal hend)
  rw [drainQueued_eq_queue h, drainQueued_eq_queue h', List.filter_map, List.filter_map]
  exact congrArg (List.map Build.entry) hbuilds

theorem Sound.hasEnded (h : Sound given l) : ∀ x ∈ l.history, l.HasEnded x :=
  fun x hx => (h.records.ended x).1 hx

theorem not_open_and_ended (l : Ledger) (id : BuildId) : ¬ (l.IsOpen id ∧ l.HasEnded id) := by
  rintro ⟨⟨b, hb, hopen⟩, x, hx, hend⟩
  rw [hb] at hx
  cases hx
  rw [hopen] at hend
  cases hend

theorem Frame.refl (h : Sound given l) (id : BuildId) (limit : Nat) : l.Frame id limit l where
  builds x _ := by rw [if_neg fun hc => hc.2 hc.1]
  ended := h.hasEnded
  entered hopen hend := absurd ⟨hopen, hend⟩ (not_open_and_ended l id)
  kept _ := rfl
  queue := rfl

theorem find?_write_self (h : l.ListsEnds) (hlimit : 1 ≤ l.historyLimit)
    (hb : l.find? n.record.id = some b) (hopen : b.isTerminal = false) :
    (l.write n).find? n.record.id = some n.record := by
  have hnot := h.not_mem_history hb hopen
  rw [find?_write hlimit, if_neg fun hmem => hnot (List.mem_of_mem_take hmem), if_pos rfl]

/-- A note on an open build. -/
theorem Frame.write (h : Sound given l) (h' : Sound given' (l.write n))
    (hlimit : 1 ≤ l.historyLimit) (hfits : l.history.length ≤ l.historyLimit)
    (hb : l.find? n.record.id = some b) (hopen : b.isTerminal = false) :
    l.Frame n.record.id l.historyLimit (l.write n) := by
  have hafter := find?_write_self h.records.listsEnds hlimit hb hopen
  have hstays : ∀ x, x ≠ n.record.id → (l.write n).find? x = l.find? x ∨
      ((l.write n).find? x = none ∧ x ∈ l.history) := by
    intro x hx
    rw [find?_write hlimit, if_neg hx]
    split
    · rename_i hmem
      exact .inr ⟨rfl, List.mem_of_mem_take hmem⟩
    · exact .inl rfl
  have hhistory : (l.write n).history = (l.history ++ n.ended).rtake l.historyLimit := rfl
  constructor
  case builds => exact fun x hx => h.records.find?_eq_of_stays h'.records (hstays x hx)
  case ended => exact h.hasEnded
  case entered =>
    rintro - ⟨x, hx, hend⟩
    rw [hafter] at hx
    cases hx
    rw [hhistory, Note.ended, if_pos hend]
  case kept =>
    intro hnot
    have hend : ¬ n.record.isTerminal = true := fun hend =>
      hnot ⟨⟨b, hb, hopen⟩, _, hafter, hend⟩
    rw [hhistory, Note.ended, if_neg hend, List.append_nil, rtake_of_length_le hfits]
  case queue => exact drainQueued_others h h' hstays

/-- A new build. -/
theorem Frame.submit {r : Request} {now : Instant} (h : Sound given l) (hnew : id ∉ given)
    (hs : l.submit r id now = .ok (b, l')) (limit : Nat) : l.Frame id limit l' := by
  have hnone : l.find? id = none := h.records.find?_eq_none hnew
  have hafter := sound_submit h hnew hs
  obtain ⟨-, rfl, rfl⟩ := submit_eq_ok hnone hs
  have hsame : ∀ x, x ≠ id →
      (l.put (.ofRequest r id l.nextSequence now)).find? x = l.find? x :=
    fun x hx => find?_put_of_ne l _ hx
  have hclosed : ¬ l.IsOpen id := by
    rintro ⟨x, hx, -⟩
    rw [hnone] at hx
    cases hx
  constructor
  case builds => exact fun x hx => h.records.find?_eq_of_stays hafter.records (.inl (hsame x hx))
  case ended => exact h.hasEnded
  case entered => exact fun hopen => absurd hopen hclosed
  case kept => exact fun _ => rfl
  case queue => exact drainQueued_others h hafter fun x hx => .inl (hsame x hx)

end Ledger

/-! ## Rosters -/

/-- The slot of an online worker becomes free. -/
theorem Worker.release_eq {w : Worker} (hon : w.isOnline = true) (b : BuildId) :
    w.release b = { w with
      active := w.active.erase b.text
      status := if w.capacity ≤ (w.active.erase b.text).size then .busy else .available } :=
  if_pos hon

theorem Worker.particulars_release (w : Worker) (b : BuildId) :
    (w.release b).particulars = w.particulars := by
  unfold release refresh particulars
  split <;> rfl

theorem Worker.Sound.isOnline {w : Worker} {b : BuildId} (h : w.Sound) (hb : b ∈ w.active) :
    w.isOnline = true := by
  cases hon : w.isOnline with
  | true => rfl
  | false =>
    rw [h.idle hon] at hb
    exact absurd hb (Catalog.not_mem_empty b)

namespace Roster

/-- From one roster to the next nothing changed but that the worker of a build lost it, unless the
build stays with its worker. -/
structure Frame (id : BuildId) (stays : Prop) (r r' : Roster) : Prop where
  others : ∀ w, ¬ r.Holds w id → r'.find? w = r.find? w
  holds : stays → ∀ w worker, r.find? w = some worker → id ∈ worker.active →
    r'.find? w = some worker
  loses : ¬ stays → ∀ w worker, r.find? w = some worker → id ∈ worker.active →
    r'.find? w = some { worker with
      active := worker.active.erase id.text
      status := if worker.capacity ≤ (worker.active.erase id.text).size then .busy else .available }
  particulars : ∀ w,
    (r'.find? w).map Worker.particulars = (r.find? w).map Worker.particulars

variable {r : Roster} {id : BuildId} {stays : Prop} {v : WorkerId}

theorem Frame.refl (h : (∃ w, r.Holds w id) → stays) : r.Frame id stays r where
  others _ _ := rfl
  holds _ _ _ hw _ := hw
  loses hnot w worker hw hid := absurd (h ⟨w, worker, hw, hid⟩) hnot
  particulars _ := rfl

/-- The build leaves its worker. -/
theorem Frame.vacate (h : r.Sound) (hnot : ¬ stays) (hheld : ∀ w, r.Holds w id ↔ w = v) :
    r.Frame id stays (r.vacate id (some v)) where
  others w hw := by rw [find?_vacate, if_neg fun heq => hw ((hheld w).2 heq)]
  holds hstays := absurd hstays hnot
  loses _ w worker hw hid := by
    have hon := (h w worker hw).isOnline hid
    rw [find?_vacate, if_pos ((hheld w).1 ⟨worker, hw, hid⟩), hw, Option.map_some,
      Worker.release_eq hon]
  particulars w := by
    rw [find?_vacate]
    split
    · rw [Option.map_map]
      exact Option.map_congr fun worker _ => worker.particulars_release id
    · rfl

end Roster

/-! ## What operations write -/

namespace OnBuild

variable {now : Instant} {b : Build} {w : WorkerId}

/-- A build leaves only the worker that it was with. -/
theorem heldBy_of_left {op : OnBuild} (hworker : b.worker.isSome = b.status.holdsWorker)
    (hleft : (op.effect now b).left = some w) :
    b.heldBy w = true ∧ (op.effect now b).note.record.status.holdsWorker = false := by
  cases op with
  | cancel id =>
    have hw : b.worker = some w := hleft
    rw [hw] at hworker
    exact ⟨Build.heldBy_iff.2 ⟨hworker.symm, hw⟩, rfl⟩
  | complete id r =>
    simp only [effect] at hleft ⊢
    split at hleft
    · rename_i hheld
      cases hleft
      rw [if_pos hheld]
      exact ⟨hheld, BuildStatus.holdsWorker_eq_false_of_isTerminal (Ledger.isTerminal_verdict r)⟩
    · cases hleft
  | progress id v amount =>
    simp only [effect] at hleft
    split at hleft
    · split at hleft
      · cases hleft
      · cases hleft
    · cases hleft
  | satisfy id artifacts =>
    simp only [effect] at hleft
    split at hleft
    · cases hleft
    · cases hleft
  | delivered a =>
    simp only [effect] at hleft
    split at hleft
    · cases hleft
    · cases hleft
  | undelivered a =>
    simp only [effect] at hleft ⊢
    split at hleft
    · rename_i hawaits
      cases hleft
      rw [if_pos hawaits]
      exact ⟨(Build.awaits_iff.1 hawaits).2.2, rfl⟩
    · cases hleft

/-- A build that leaves no worker is with one as before. -/
theorem holdsWorker_of_stays {op : OnBuild} (hworker : b.worker.isSome = b.status.holdsWorker)
    (hleft : (op.effect now b).left = none) :
    (op.effect now b).note.record.status.holdsWorker = b.status.holdsWorker := by
  cases op with
  | cancel id =>
    have hnone : b.worker = none := hleft
    rw [hnone] at hworker
    exact hworker
  | complete id r =>
    simp only [effect] at hleft ⊢
    split at hleft
    · cases hleft
    · rename_i hnot
      rw [if_neg hnot]
      rfl
  | progress id v amount =>
    simp only [effect]
    split
    · split
      · rename_i hheld
        have hholds := (Build.heldBy_iff.1 hheld).1
        exact (Build.advance_holdsWorker hholds amount).trans hholds.symm
      · rfl
    · rfl
  | satisfy id artifacts =>
    simp only [effect]
    split
    · rename_i hq
      rw [hq]
      rfl
    · rfl
  | delivered a =>
    simp only [effect]
    split
    · rename_i hawaits
      rw [(Build.awaits_iff.1 hawaits).1]
      rfl
    · rfl
  | undelivered a =>
    simp only [effect] at hleft ⊢
    split at hleft
    · cases hleft
    · rename_i hnot
      rw [if_neg hnot]
      rfl

end OnBuild

/-! ## Pools -/

namespace Pool

open Ledger

/-- From one pool to the next nothing changed but one build and the slot that it had. -/
structure Frame (id : BuildId) (p q : Pool) : Prop where
  ledger : p.ledger.Frame id p.config.retainedHistory q.ledger
  roster : p.roster.Frame id (q.ledger.WithWorker id) q.roster

variable {given : List BuildId} {p q : Pool} {b : Build} {id : BuildId} {now : Instant}

theorem Frame.refl (h : p.Sound given) (id : BuildId) : p.Frame id p where
  ledger := .refl h.ledger id _
  roster := .refl <| by
    rintro ⟨w, hw⟩
    exact HeldBy.withWorker ((h.slots w id).1 hw)

theorem not_awaits_of_closed {a : Assignment} (h : p.ledger.Closed a.build) : ¬ p.Awaits a := by
  intro hawaits
  obtain ⟨b, hb, ha⟩ := awaits_iff.1 hawaits
  exact h.not_heldBy ⟨b, hb, (Build.awaits_iff.1 ha).2.2⟩

theorem perform_of_closed {op : OnBuild} (h : p.ledger.Closed op.build) (now : Instant) :
    (p.perform now op).2 = p := by
  cases op with
  | cancel id => exact settle_of_idle (idle_cancel h now) _
  | complete id r => exact settle_of_idle (idle_complete h now r) _
  | progress id w amount =>
    have hidle : p.Idle (fun _ => True) (p.progress now id w amount) := by
      intro held q hs
      refine ⟨trivial, ?_⟩
      rcases progress_eq_ok hs with rfl | ⟨l, hl, -, -⟩
      · rfl
      · obtain ⟨b, hb, hheld, -⟩ := Ledger.progress_eq_ok hl
        exact absurd ⟨b, hb, hheld⟩ h.not_heldBy
    exact settle_of_idle hidle _
  | satisfy id artifacts => exact congrArg Prod.snd (satisfy_of_closed h now artifacts)
  | delivered a => exact delivered_of_not_awaits (not_awaits_of_closed h) now
  | undelivered a => exact undelivered_of_not_awaits (not_awaits_of_closed h)


theorem HasOpen.frame {op : OnBuild} (h : HasOpen given p b) (hid : op.build = b.id)
    (hlimit : p.ledger.historyLimit = p.config.retainedHistory) (now : Instant) :
    p.Frame b.id (p.perform now op).2 := by
  obtain ⟨-, hledger, hroster⟩ := h.shows hid now
  have hafter := (sound_perform h.sound now op).ledger
  have hworker := h.sound.ledger.records.worker b.id b h.found
  have hrecord := op.effect_id now b
  have hfound := h.found
  rw [hledger] at hafter
  rw [← hrecord] at hfound ⊢
  have hwith : (p.perform now op).2.ledger.WithWorker (op.effect now b).note.record.id ↔
      (op.effect now b).note.record.status.holdsWorker = true := by
    simp [WithWorker, hledger, find?_write_self h.ends h.limit hfound h.opened]
  constructor
  case ledger =>
    rw [hledger, ← hlimit]
    exact .write h.sound.ledger hafter h.limit h.fits hfound h.opened
  case roster =>
    have hheld : ∀ w, p.roster.Holds w b.id ↔ b.heldBy w = true := fun w => by
      rw [h.sound.slots w b.id, HeldBy, h.found]
      simp
    rw [hroster, hrecord]
    rw [hrecord] at hwith
    cases hleft : (op.effect now b).left with
    | none =>
      refine .refl ?_
      rintro ⟨w, hw⟩
      rw [hwith, OnBuild.holdsWorker_of_stays hworker hleft]
      exact (Build.heldBy_iff.1 ((hheld w).1 hw)).1
    | some v =>
      obtain ⟨hv, hnot⟩ := OnBuild.heldBy_of_left hworker hleft
      refine .vacate h.sound.roster (fun hwith' => ?_) fun w => (hheld w).trans ⟨fun hw => ?_, ?_⟩
      · rw [hwith, hnot] at hwith'
        cases hwith'
      · have hboth := (Build.heldBy_iff.1 hw).2
        rw [(Build.heldBy_iff.1 hv).2] at hboth
        exact (Option.some.inj hboth).symm
      · rintro rfl
        exact hv

theorem Frame.submitAs {r : Request} (h : p.Sound given) (hnew : id ∉ given)
    (hs : p.submitAs now r id = .ok (b, q)) : p.Frame id q := by
  obtain ⟨l, hl, rfl, hroster⟩ := submitAs_eq_ok hs
  refine ⟨.submit h.ledger hnew hl _, ?_⟩
  rw [hroster]
  refine .refl ?_
  rintro ⟨w, hw⟩
  obtain ⟨x, hx, -⟩ := (h.slots w id).1 hw
  rw [h.ledger.records.find?_eq_none hnew] at hx
  cases hx

end Pool

namespace Course

/-- No operation on one build touches another, or another worker than its own. -/
theorem single_build_frame {c : Course} (h : c.Reachable) (now : Instant) :
    (∀ op : OnBuild, c.pool.Frame op.build (c.pool.perform now op).2) ∧
      ∀ r id, id ∉ c.given → c.pool.Frame id (Steps.settle c.pool (c.pool.submitAs now r id)).2 := by
  have hsound := h.sound.pool
  have hlimited := h.limited
  constructor
  · intro op
    by_cases hopen : c.pool.ledger.IsOpen op.build
    · obtain ⟨b, hb, hopen⟩ := hopen
      have hid := Ledger.id_of_find? hb
      have hhas : Pool.HasOpen c.given c.pool b :=
        ⟨hsound, hid ▸ hb, hopen, hlimited.limit ▸ hlimited.fits, hlimited.one_le_historyLimit⟩
      rw [← hid]
      exact hhas.frame hid.symm hlimited.limit now
    · have hclosed : c.pool.ledger.Closed op.build := fun b hb => by
        by_contra hend
        exact hopen ⟨b, hb, Bool.eq_false_iff.2 hend⟩
      rw [Pool.perform_of_closed hclosed]
      exact .refl hsound op.build
  · intro r id hnew
    cases hs : c.pool.submitAs now r id with
    | error e => exact .refl hsound id
    | ok result => exact .submitAs hsound hnew hs

/-- One of the two builds of a worker ends, and the other stays with it. -/
theorem single_build_frame_fullWorker :
    let reported : OnBuild := .complete ⟨"c"⟩ { worker := ⟨"v"⟩, success := true }
    let q := (fullWorker.pool.perform ⟨7, 0⟩ reported).2
    (fullWorker.pool.roster.find? ⟨"v"⟩).map (fun w => w.active.toList) = some [⟨"a"⟩, ⟨"c"⟩] ∧
      (q.roster.find? ⟨"v"⟩).map (fun w => w.active.toList) = some [⟨"a"⟩] ∧
      q.ledger.history = [⟨"c"⟩] ∧ fullWorker.pool.Frame reported.build q :=
  ⟨rfl, rfl, rfl, (single_build_frame reachable_fullWorker ⟨7, 0⟩).1 _⟩

end Course

end BuildPool
