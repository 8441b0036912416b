import BuildPool.Proofs.Ledger.Restart

/-!
# The books of a ledger

Every build that was submitted is still open or was counted when it ended. Eviction drops builds
that ended and are counted, so it does not touch the books.
-/

namespace BuildPool

open BuildPool.Time

namespace Ledger

variable {given : List BuildId} {l l' l'' : Ledger} {b c : Build} {id x : BuildId} {now : Instant}

/-! ## Open builds -/

/-- The build is known and did not end. -/
def IsOpen (l : Ledger) (id : BuildId) : Prop :=
  ∃ b, l.find? id = some b ∧ b.isTerminal = false

theorem isOpen_put : (l.put c).IsOpen x ↔
    (x = c.id ∧ c.isTerminal = false) ∨ (x ≠ c.id ∧ l.IsOpen x) := by
  unfold IsOpen
  rw [find?_put]
  by_cases h : x = c.id
  · simp [h]
  · simp [h]

/-- Builds that stay open, or are new, are open. -/
theorem isOpen_put_of_open (hopen : c.isTerminal = false) :
    (l.put c).IsOpen x ↔ x = c.id ∨ l.IsOpen x := by
  rw [isOpen_put]
  by_cases h : x = c.id
  · simp [h, hopen]
  · simp [h]

theorem isOpen_evict (h : Records given l) : l.evict.IsOpen x ↔ l.IsOpen x := by
  unfold IsOpen
  rw [find?_evict]
  split
  · rename_i hout
    constructor
    · rintro ⟨b, hb, -⟩
      cases hb
    · rintro ⟨b, hb, hopen⟩
      exact absurd hout (h.not_mem_surplus hb hopen)
  · rfl

theorem isOpen_archive (h : Records given l) (hb : l.find? c.id = some b)
    (hseq : c.sequence = b.sequence) (hopen : b.isTerminal = false)
    (hend : c.isTerminal = true) (hnone : c.worker = none) :
    (l.archive c).IsOpen x ↔ x ≠ c.id ∧ l.IsOpen x := by
  have hclose := h.close hb hseq hopen hend hnone (l.counters.countEnd c.status)
  have hput : (l.put c).IsOpen x ↔ x ≠ c.id ∧ l.IsOpen x := by
    rw [isOpen_put]
    simp [hend]
  exact (isOpen_evict hclose).trans hput

/-! ## Their number -/

def openIds (l : Ledger) : List BuildId := l.idsWhere fun b => !b.isTerminal

def openCount (l : Ledger) : Nat := l.openIds.length

theorem mem_openIds : id ∈ l.openIds ↔ l.IsOpen id := by
  unfold openIds IsOpen
  rw [mem_idsWhere]
  simp

theorem openCount_eq_of_isOpen (h : ∀ x, l'.IsOpen x ↔ l.IsOpen x) :
    l'.openCount = l.openCount := by
  have hperm : l'.openIds.Perm l.openIds := by
    apply (List.perm_ext_iff_of_nodup (l'.nodup_idsWhere _) (l.nodup_idsWhere _)).2
    intro x
    exact mem_openIds.trans ((h x).trans mem_openIds.symm)
  exact hperm.length_eq

/-- One build more is open. -/
theorem openCount_eq_succ (id : BuildId) (hid : ¬ l.IsOpen id)
    (h : ∀ x, l'.IsOpen x ↔ x = id ∨ l.IsOpen x) : l'.openCount = l.openCount + 1 := by
  have hnew : id ∉ l.openIds := fun hmem => hid (mem_openIds.1 hmem)
  have hnodup : (id :: l.openIds).Nodup := List.nodup_cons.2 ⟨hnew, l.nodup_idsWhere _⟩
  have hperm : l'.openIds.Perm (id :: l.openIds) := by
    apply (List.perm_ext_iff_of_nodup (l'.nodup_idsWhere _) hnodup).2
    intro x
    rw [List.mem_cons, mem_openIds]
    exact mem_openIds.trans (h x)
  exact hperm.length_eq

/-- A build is open as long as it is queued, assigned or running. -/
theorem openCount_eq (l : Ledger) :
    l.openCount = l.countOf .queued + l.countOf .assigned + l.countOf .running := by
  unfold openCount openIds idsWhere countOf
  rw [List.length_map, ← List.countP_eq_length_filter]
  induction l.builds.toList with
  | nil => rfl
  | cons b rest ih =>
    simp only [List.countP_cons]
    rw [ih]
    unfold Build.isTerminal
    cases b.status <;> simp [BuildStatus.isTerminal] <;> omega

/-! ## The books -/

structure Balanced (l : Ledger) : Prop where
  submitted : l.counters.submitted =
    l.counters.completed + l.counters.failed + l.counters.cancelled + l.openCount
  cached : l.counters.cacheHits ≤ l.counters.completed

end Ledger

/-- No figure is smaller than it was. -/
structure Counters.Grows (c c' : Counters) : Prop where
  submitted : c.submitted ≤ c'.submitted
  completed : c.completed ≤ c'.completed
  failed : c.failed ≤ c'.failed
  cancelled : c.cancelled ≤ c'.cancelled
  retried : c.retried ≤ c'.retried
  cacheHits : c.cacheHits ≤ c'.cacheHits

namespace Counters

theorem Grows.refl (c : Counters) : c.Grows c := by
  constructor <;> exact Nat.le_refl _

theorem Grows.trans {c c' c'' : Counters} (h : c.Grows c') (h' : c'.Grows c'') : c.Grows c'' where
  submitted := Nat.le_trans h.submitted h'.submitted
  completed := Nat.le_trans h.completed h'.completed
  failed := Nat.le_trans h.failed h'.failed
  cancelled := Nat.le_trans h.cancelled h'.cancelled
  retried := Nat.le_trans h.retried h'.retried
  cacheHits := Nat.le_trans h.cacheHits h'.cacheHits

theorem grows_countEnd (c : Counters) (s : BuildStatus) : c.Grows (c.countEnd s) := by
  cases s <;> constructor <;> simp [countEnd]

/-- Each end is counted once. -/
theorem countEnd_ended (c : Counters) {s : BuildStatus} (h : s.isTerminal = true) :
    (c.countEnd s).submitted = c.submitted ∧
      (c.countEnd s).completed + (c.countEnd s).failed + (c.countEnd s).cancelled =
        c.completed + c.failed + c.cancelled + 1 := by
  cases s <;> simp [countEnd, BuildStatus.isTerminal] at h ⊢ <;> omega

theorem countEnd_cacheHits (c : Counters) (s : BuildStatus) :
    (c.countEnd s).cacheHits = c.cacheHits := by
  cases s <;> rfl

end Counters

namespace Ledger

variable {given : List BuildId} {l l' l'' : Ledger} {b c : Build} {id x : BuildId} {w : WorkerId}
  {now : Instant}

/-- The books balance if they did before, and no figure became smaller. -/
structure KeepsBooks (l l' : Ledger) : Prop where
  balanced : l.Balanced → l'.Balanced
  grows : l.counters.Grows l'.counters

namespace KeepsBooks

theorem refl (l : Ledger) : KeepsBooks l l := ⟨fun h => h, .refl l.counters⟩

theorem trans (h : KeepsBooks l l') (h' : KeepsBooks l' l'') : KeepsBooks l l'' :=
  ⟨fun hl => h'.balanced (h.balanced hl), h.grows.trans h'.grows⟩

theorem of_isOpen (hopen : ∀ x, l'.IsOpen x ↔ l.IsOpen x) (hcounters : l'.counters = l.counters) :
    KeepsBooks l l' := by
  have hcount := openCount_eq_of_isOpen hopen
  constructor
  · intro h
    have hsubmitted := h.submitted
    have hcached := h.cached
    constructor
    · rw [hcounters, hcount]
      exact hsubmitted
    · rw [hcounters]
      exact hcached
  · rw [hcounters]
    exact .refl l.counters

/-- A build that is open is written anew and stays open. -/
theorem put (hb : l.find? c.id = some b) (hopen : b.isTerminal = false)
    (hopen' : c.isTerminal = false) : KeepsBooks l (l.put c) := by
  apply of_isOpen
  · intro x
    rw [isOpen_put_of_open hopen']
    constructor
    · rintro (rfl | hx)
      · exact ⟨b, hb, hopen⟩
      · exact hx
    · exact .inr
  · rfl

theorem evict (h : Records given l) : KeepsBooks l l.evict :=
  of_isOpen (fun _ => isOpen_evict h) rfl

end KeepsBooks

/-! ## Every operation -/

theorem openCount_archive (h : Records given l) (hb : l.find? c.id = some b)
    (hseq : c.sequence = b.sequence) (hopen : b.isTerminal = false) (hend : c.isTerminal = true)
    (hnone : c.worker = none) : l.openCount = (l.archive c).openCount + 1 := by
  have harchive : ∀ x, (l.archive c).IsOpen x ↔ x ≠ c.id ∧ l.IsOpen x :=
    fun x => isOpen_archive h hb hseq hopen hend hnone
  apply openCount_eq_succ c.id
  · intro hstays
    exact ((harchive c.id).1 hstays).1 rfl
  · intro x
    rw [harchive x]
    by_cases hx : x = c.id
    · subst hx
      simp only [true_or, iff_true]
      exact ⟨b, hb, hopen⟩
    · simp [hx]

theorem balanced_archive (h : Records given l) (hb : l.find? c.id = some b)
    (hseq : c.sequence = b.sequence) (hopen : b.isTerminal = false) (hend : c.isTerminal = true)
    (hnone : c.worker = none)
    (hsubmitted : l.counters.submitted =
      l.counters.completed + l.counters.failed + l.counters.cancelled + l.openCount)
    (hcached : l.counters.cacheHits ≤ (l.counters.countEnd c.status).completed) :
    (l.archive c).Balanced := by
  have hcount := openCount_archive h hb hseq hopen hend hnone
  have hended := l.counters.countEnd_ended hend
  constructor
  · change (l.counters.countEnd c.status).submitted = (l.counters.countEnd c.status).completed +
      (l.counters.countEnd c.status).failed + (l.counters.countEnd c.status).cancelled +
      (l.archive c).openCount
    omega
  · change (l.counters.countEnd c.status).cacheHits ≤ _
    rw [Counters.countEnd_cacheHits]
    exact hcached

theorem KeepsBooks.archive (h : Records given l) (hb : l.find? c.id = some b)
    (hseq : c.sequence = b.sequence) (hopen : b.isTerminal = false) (hend : c.isTerminal = true)
    (hnone : c.worker = none) : KeepsBooks l (l.archive c) := by
  have hgrows := l.counters.grows_countEnd c.status
  constructor
  · intro hl
    have hcached := hl.cached
    have hcompleted := hgrows.completed
    apply balanced_archive h hb hseq hopen hend hnone hl.submitted
    omega
  · exact hgrows

theorem keepsBooks_submit {r : Request} (h : Records given l) (hnew : id ∉ given)
    (hs : l.submit r id now = .ok (b, l')) : KeepsBooks l l' := by
  have hnone := h.find?_eq_none hnew
  obtain ⟨-, rfl, rfl⟩ := submit_eq_ok hnone hs
  have hcount : (l.put (.ofRequest r id l.nextSequence now)).openCount = l.openCount + 1 := by
    apply openCount_eq_succ id
    · rintro ⟨a, ha, -⟩
      rw [hnone] at ha
      cases ha
    · intro x
      exact isOpen_put_of_open rfl
  constructor
  · intro hl
    have hsubmitted := hl.submitted
    constructor
    · change l.counters.submitted + 1 = l.counters.completed + l.counters.failed +
        l.counters.cancelled + (l.put (.ofRequest r id l.nextSequence now)).openCount
      omega
    · exact hl.cached
  · constructor <;> simp

theorem keepsBooks_lose (h : Records given l) (id : BuildId) (w : WorkerId) (now : Instant) :
    KeepsBooks l (l.lose id w now).2 := by
  rcases lose_cases l id w now with ⟨-, heq⟩ | ⟨b, hb, hheld, ⟨-, heq⟩ | ⟨-, heq⟩⟩
  · rw [heq]
    exact .refl l
  · obtain rfl := id_of_find? hb
    rw [heq]
    exact .archive (b := b) h hb rfl (Build.isTerminal_eq_false_of_heldBy hheld) rfl rfl
  · obtain rfl := id_of_find? hb
    have hput : KeepsBooks l (l.put { b with retries := b.retries + 1 }.requeue) :=
      .put (b := b) hb (Build.isTerminal_eq_false_of_heldBy hheld) rfl
    rw [heq]
    constructor
    · intro hl
      have hback := hput.balanced hl
      exact ⟨hback.submitted, hback.cached⟩
    · constructor <;> simp

theorem keepsBooks_satisfy? {artifacts : List String} (h : Records given l)
    (hs : l.satisfy? id artifacts now = some l') : KeepsBooks l l' := by
  obtain ⟨b, hb, hq, rfl⟩ := satisfy?_eq_some hs
  obtain rfl := id_of_find? hb
  have hrecords := h.withQueue l.backlog
    { l.counters with cacheHits := l.counters.cacheHits + 1 }
  constructor
  · intro hl
    have hcached := hl.cached
    apply balanced_archive (c := b.finish .completed { success := true, artifacts } now)
      hrecords hb rfl (Build.isTerminal_eq_false_of_queued hq) rfl rfl
    · exact hl.submitted
    · change l.counters.cacheHits + 1 ≤ l.counters.completed + 1
      omega
  · change l.counters.Grows
      (({ l.counters with cacheHits := l.counters.cacheHits + 1 } : Counters).countEnd .completed)
    constructor <;> simp [Counters.countEnd]

theorem keepsBooks_loseAll (h : Sound given l) (now : Instant)
    (pairs : List (BuildId × WorkerId)) : KeepsBooks l (loseAll now pairs l).2 := by
  induction pairs generalizing l with
  | nil => exact .refl l
  | cons pair rest ih =>
    have hfirst := keepsBooks_lose h.records pair.1 pair.2 now
    have hrest := ih (sound_lose h pair.1 pair.2 now).1
    exact hfirst.trans hrest

/-- A restart may bring other limits: builds fail in it, and more of the history is dropped. -/
theorem keepsBooks_ofImage (h : Sound given l) (maxRetries historyLimit : Nat) (now : Instant) :
    KeepsBooks l (ofImage l.toImage maxRetries historyLimit now).2 := by
  have hfind := find?_reopen l maxRetries historyLimit
  have hopen : KeepsBooks l (reopen l.toImage maxRetries historyLimit) := by
    apply KeepsBooks.of_isOpen
    · intro x
      unfold IsOpen
      rw [hfind]
    · rfl
  have hsound := sound_reopen h maxRetries historyLimit
  have hlost := keepsBooks_loseAll hsound now (reopen l.toImage maxRetries historyLimit).inFlight
  have hrecords := (sound_loseAll now (reopen l.toImage maxRetries historyLimit).inFlight
    hsound).1.records
  exact hopen.trans (hlost.trans (.evict hrecords))

end Ledger

end BuildPool
