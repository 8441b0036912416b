import BuildPool.Proofs.Ledger.Losses

/-!
# What can be seen of a ledger

Nobody sees the shape of the backlog, only the order in which builds come off it. A ledger that is
rebuilt from its image has another backlog and looks the same, but for the builds that were with
workers: it looks as if all of these had lost their workers, one after the other.
-/

namespace BuildPool

open BuildPool.Time

namespace Ledger

variable {given : List BuildId} {l l' : Ledger} {b : Build} {id : BuildId} {w : WorkerId}
  {now : Instant} {maxRetries historyLimit : Nat}

/-! ## Views -/

structure View where
  builds : List Build
  history : List BuildId
  nextSequence : Nat
  counters : Counters
  /-- The entries in the order in which they come off the backlog. -/
  drained : List Entry

def view (l : Ledger) : View :=
  ⟨l.builds.toList, l.history, l.nextSequence, l.counters, l.drainQueued⟩

/-- The ledgers differ in nothing but their backlogs. -/
def Alike (l l' : Ledger) : Prop := ∃ backlog, l' = { l with backlog }

theorem drainQueued_eq_queue (h : Sound given l) : l.drainQueued = l.queue.map Build.entry := by
  rw [drainQueued_eq_waiting, waiting_eq_queue h.records h.lists]

/-- In which order builds come off is set by their records. -/
theorem drainQueued_of_builds {l' : Ledger} (h : Sound given l) (h' : Sound given l')
    (hbuilds : l.builds = l'.builds) : l.drainQueued = l'.drainQueued := by
  rw [drainQueued_eq_queue h, drainQueued_eq_queue h', queue, queue, hbuilds]

/-- In sound ledgers the order of the queue is set by the builds. -/
theorem Alike.view_eq (h : Sound given l) (h' : Sound given l') (halike : Alike l l') :
    l'.view = l.view := by
  obtain ⟨backlog, rfl⟩ := halike
  have hdrain := drainQueued_of_builds h' h rfl
  unfold view
  rw [hdrain]

/-- The ledgers differ in nothing but their backlogs, and these are related. -/
def AlikeBy (R : Backlog → Backlog → Prop) (l l' : Ledger) : Prop :=
  ∃ backlog, R l.backlog backlog ∧ l' = { l with backlog }

section
variable {R : Backlog → Backlog → Prop}

/-- What is lost does not depend on the backlog, and both backlogs get the same entry. -/
theorem AlikeBy.lose (hpush : ∀ q q' e, R q q' → R (q.push e) (q'.push e))
    (halike : AlikeBy R l l') (id : BuildId) (w : WorkerId) (now : Instant) :
    (l'.lose id w now).1 = (l.lose id w now).1 ∧
      AlikeBy R (l.lose id w now).2 (l'.lose id w now).2 := by
  obtain ⟨q, hq, rfl⟩ := halike
  have hfind : { l with backlog := q }.find? id = l.find? id := rfl
  unfold Ledger.lose
  rw [hfind]
  cases l.find? id with
  | none => exact ⟨rfl, q, hq, rfl⟩
  | some b =>
    dsimp only
    split
    · split
      · exact ⟨rfl, q, hq, rfl⟩
      · exact ⟨rfl, _, hpush _ _ _ hq, rfl⟩
    · exact ⟨rfl, q, hq, rfl⟩

theorem AlikeBy.loseAll (hpush : ∀ q q' e, R q q' → R (q.push e) (q'.push e))
    (halike : AlikeBy R l l') (now : Instant) (pairs : List (BuildId × WorkerId)) :
    (Ledger.loseAll now pairs l').1 = (Ledger.loseAll now pairs l).1 ∧
      AlikeBy R (Ledger.loseAll now pairs l).2 (Ledger.loseAll now pairs l').2 := by
  induction pairs generalizing l l' with
  | nil => exact ⟨rfl, halike⟩
  | cons pair rest ih =>
    obtain ⟨id, w⟩ := pair
    obtain ⟨hloss, hone⟩ := halike.lose hpush id w now
    obtain ⟨hlosses, hall⟩ := ih hone
    refine ⟨?_, hall⟩
    rw [loseAll_cons, loseAll_cons, hloss, hlosses]

end

theorem alike_iff : Alike l l' ↔ AlikeBy (fun _ _ => True) l l' := by
  simp only [Alike, AlikeBy, true_and]

theorem Alike.loseAll (halike : Alike l l') (now : Instant) (pairs : List (BuildId × WorkerId)) :
    (Ledger.loseAll now pairs l').1 = (Ledger.loseAll now pairs l).1 ∧
      Alike (Ledger.loseAll now pairs l).2 (Ledger.loseAll now pairs l').2 := by
  rw [alike_iff] at halike ⊢
  exact halike.loseAll (fun _ _ _ => id) now pairs

/-! ## A rebuilt ledger -/

theorem alike_reopen (h : Sound given l) (hwithin : Within maxRetries historyLimit l) :
    Alike l (reopen l.toImage maxRetries historyLimit) := by
  have hbuilds := builds_reopen l maxRetries historyLimit
  have hhistory := history_reopen h.records maxRetries historyLimit
  have hnext := nextSequence_reopen h.records maxRetries historyLimit
  have hcounters : (reopen l.toImage maxRetries historyLimit).counters = l.counters := rfl
  have hretries : (reopen l.toImage maxRetries historyLimit).maxRetries = l.maxRetries :=
    (limits_reopen l.toImage maxRetries historyLimit).1.trans hwithin.retries.symm
  have hlimit : (reopen l.toImage maxRetries historyLimit).historyLimit = l.historyLimit :=
    (limits_reopen l.toImage maxRetries historyLimit).2.trans hwithin.limit.symm
  refine ⟨(reopen l.toImage maxRetries historyLimit).backlog, ?_⟩
  rw [← hbuilds, ← hhistory, ← hnext, ← hcounters, ← hretries, ← hlimit]

/-- A ledger that is rebuilt from its image looks like the ledger after all builds with workers lost
them, in the order of their submission. -/
theorem alike_ofImage (h : Sound given l) (hwithin : Within maxRetries historyLimit l)
    (now : Instant) :
    (ofImage l.toImage maxRetries historyLimit now).1 = (loseAll now l.inFlight l).1 ∧
      Alike (loseAll now l.inFlight l).2 (ofImage l.toImage maxRetries historyLimit now).2 := by
  have halike := alike_reopen h hwithin
  have hflight := inFlight_reopen l maxRetries historyLimit
  obtain ⟨hlosses, hlost⟩ := halike.loseAll now l.inFlight
  have hfits := hwithin.loseAll now l.inFlight
  unfold ofImage
  dsimp only
  rw [hflight]
  refine ⟨hlosses, ?_⟩
  obtain ⟨backlog, heq⟩ := hlost
  rw [heq, evict_eq_self]
  · exact ⟨backlog, rfl⟩
  · change (loseAll now l.inFlight l).2.history.length ≤ (loseAll now l.inFlight l).2.historyLimit
    rw [hfits.limit]
    exact hfits.fits

theorem view_ofImage (h : Sound given l) (hwithin : Within maxRetries historyLimit l)
    (now : Instant) :
    (ofImage l.toImage maxRetries historyLimit now).2.view =
      (loseAll now l.inFlight l).2.view :=
  (alike_ofImage h hwithin now).2.view_eq (sound_loseAll now l.inFlight h).1
    (sound_ofImage h maxRetries historyLimit now).1

/-! ## The builds in flight -/

/-- The builds that are assigned or running, the first submitted first. -/
def withWorkers (l : Ledger) : List Build :=
  bySequence (l.builds.toList.filter (·.status.holdsWorker))

theorem mem_withWorkers :
    b ∈ l.withWorkers ↔ l.find? b.id = some b ∧ b.status.holdsWorker = true := by
  rw [withWorkers, mem_bySequence, List.mem_filter, Catalog.mem_toList, mem_builds_iff]

theorem withWorkers_ordered (h : Records given l) :
    l.withWorkers.Pairwise fun a b => a.sequence < b.sequence := by
  have hnodup : l.withWorkers.Nodup :=
    (List.mergeSort_perm _ _).nodup_iff.2 (l.builds.nodup_items.sublist List.filter_sublist)
  have hsorted := bySequence_ordered (l.builds.toList.filter (·.status.holdsWorker))
  refine (hsorted.and hnodup).imp_of_mem fun {a b} ha hb hab => ?_
  refine Nat.lt_of_le_of_ne hab.1 fun hseq => hab.2 ?_
  exact h.eq_of_sequence_eq (mem_withWorkers.1 ha).1 (mem_withWorkers.1 hb).1 hseq

/-- What is in flight are the builds with workers, each with its own. -/
theorem inFlight_eq (h : Records given l) :
    l.inFlight.map (fun x => (x.1, some x.2)) = l.withWorkers.map fun b => (b.id, b.worker) := by
  have hsome : ∀ b ∈ l.withWorkers, b.worker.isSome = true := by
    intro b hb
    obtain ⟨hfind, hw⟩ := mem_withWorkers.1 hb
    rw [h.worker b.id b hfind, hw]
  unfold inFlight
  change (l.withWorkers.filterMap _).map _ = _
  generalize l.withWorkers = bs at hsome
  induction bs with
  | nil => rfl
  | cons b rest ih =>
    obtain ⟨w, hw⟩ := Option.isSome_iff_exists.1 (hsome b List.mem_cons_self)
    have hrest := ih fun x hx => hsome x (List.mem_cons_of_mem b hx)
    simp only [List.filterMap_cons, hw, Option.map_some, List.map_cons]
    rw [hrest]

/-- No build is in flight twice. -/
theorem nodup_inFlight (l : Ledger) : (l.inFlight.map Prod.fst).Nodup := by
  have hperm : (l.withWorkers.map Build.id).Perm (l.idsWhere (·.status.holdsWorker)) :=
    (List.mergeSort_perm _ _).map Build.id
  have hsub : (l.inFlight.map Prod.fst).Sublist (l.withWorkers.map Build.id) := by
    unfold inFlight
    change ((l.withWorkers.filterMap _).map _).Sublist _
    induction l.withWorkers with
    | nil => exact .slnil
    | cons b rest ih =>
      cases hw : b.worker with
      | none =>
        rw [List.filterMap_cons_none (by rw [hw]; rfl)]
        exact ih.cons b.id
      | some w =>
        rw [List.filterMap_cons_some (by rw [hw]; rfl)]
        exact ih.cons_cons b.id
  exact (hperm.nodup_iff.2 (l.nodup_idsWhere _)).sublist hsub

theorem holding_inFlight (l : Ledger) : l.Holding l.inFlight where
  once := l.nodup_inFlight
  held _ hx := mem_inFlight.1 hx

end Ledger

end BuildPool
