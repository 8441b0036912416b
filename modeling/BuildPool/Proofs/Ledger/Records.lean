import BuildPool.Proofs.Ledger.Operations

/-!
# The records of a ledger

The sequence number of a build is its place among all submissions. A build has a worker exactly
while it is with one, and the history lists the builds that ended and are still kept. Only these are
ever dropped, so no build that is open leaves the ledger.
-/

namespace BuildPool

open BuildPool.Time

/-! ## Places among the submissions -/

/-- The id was the `n`-th that a build was given. -/
def Numbered (given : List BuildId) (id : BuildId) (n : Nat) : Prop :=
  0 < n ∧ given[n - 1]? = some id

namespace Numbered

variable {given : List BuildId} {a b : BuildId} {n m : Nat}

theorem mem (h : Numbered given a n) : a ∈ given := List.mem_of_getElem? h.2

theorem le_length (h : Numbered given a n) : n ≤ given.length := by
  obtain ⟨hpos, hget⟩ := h
  have := (List.getElem?_eq_some_iff.1 hget).1
  omega

theorem append (h : Numbered given a n) (more : List BuildId) : Numbered (given ++ more) a n := by
  obtain ⟨hpos, hget⟩ := h
  refine ⟨hpos, ?_⟩
  rw [List.getElem?_append_left (List.getElem?_eq_some_iff.1 hget).1, hget]

theorem last (given : List BuildId) (a : BuildId) : Numbered (given ++ [a]) a (given.length + 1) :=
  ⟨Nat.succ_pos _, by simp⟩

theorem id_eq (ha : Numbered given a n) (hb : Numbered given b n) : a = b := by
  have h := ha.2
  rw [hb.2] at h
  exact (Option.some.inj h).symm

end Numbered

/-! ## Looking up after a change -/

namespace Ledger

variable {l : Ledger} {b b' : Build} {id : BuildId} {w : WorkerId} {given : List BuildId}

theorem id_of_find? (h : l.find? id = some b) : b.id = id := by
  have hkey : b.key = id.text := Catalog.key_of_find? h
  exact BuildId.text_inj.1 hkey

theorem mem_builds_iff : b ∈ l.builds ↔ l.find? b.id = some b := Catalog.mem_iff_find?

theorem find?_put (l : Ledger) (b : Build) (id : BuildId) :
    (l.put b).find? id = if id = b.id then some b else l.find? id := by
  rw [find?, put, Catalog.find?_insert]
  simp only [Build.key, BuildId.text_inj]
  rfl

theorem find?_put_self (l : Ledger) (b : Build) : (l.put b).find? b.id = some b := by
  rw [find?_put, if_pos rfl]

theorem find?_put_of_ne (l : Ledger) (b : Build) (h : id ≠ b.id) :
    (l.put b).find? id = l.find? id := by
  rw [find?_put, if_neg h]

theorem put_of_find? (h : l.find? b.id = some b) : l.put b = l :=
  congrArg (fun builds => { l with builds }) (Catalog.insert_of_find? h)

/-- What holds of the recorded builds and of a new record holds after it is written. -/
theorem forall_find?_put {P : BuildId → Build → Prop} (h : ∀ id b, l.find? id = some b → P id b)
    (hb' : P b'.id b') (id : BuildId) (x : Build) (hx : (l.put b').find? id = some x) : P id x := by
  rw [find?_put] at hx
  split at hx
  · rename_i hid
    cases hx
    rw [hid]
    exact hb'
  · exact h id x hx

/-- The builds that a ledger drops when it brings its history down to the limit. -/
def surplus (l : Ledger) : List BuildId := l.history.take (l.history.length - l.historyLimit)

theorem find?_foldl_erase (ids : List BuildId) (c : Catalog Build Build.key) (id : BuildId) :
    (ids.foldl (fun c id => c.erase id.text) c).find? id.text =
      if id ∈ ids then none else c.find? id.text := by
  induction ids generalizing c with
  | nil => rfl
  | cons a rest ih =>
    rw [List.foldl_cons, ih, Catalog.find?_erase]
    by_cases ha : id = a
    · simp [ha]
    · by_cases hr : id ∈ rest
      · simp [hr]
      · simp [ha, hr]

theorem find?_evict (l : Ledger) (id : BuildId) :
    l.evict.find? id = if id ∈ l.surplus then none else l.find? id :=
  find?_foldl_erase _ _ _

theorem find?_archive (l : Ledger) (b : Build) (id : BuildId) :
    (l.archive b).find? id =
      if id ∈ (l.history ++ [b.id]).take ((l.history ++ [b.id]).length - l.historyLimit) then none
      else (l.put b).find? id :=
  find?_evict _ id

/-- What is there after a build ended is its last record, or it was there before. -/
theorem find?_archive_cases {c x : Build} (hx : (l.archive c).find? id = some x) :
    (id = c.id ∧ x = c) ∨ (id ≠ c.id ∧ l.find? id = some x) := by
  rw [find?_archive] at hx
  split at hx
  · cases hx
  · rw [find?_put] at hx
    split at hx
    · rename_i hid
      cases hx
      exact .inl ⟨hid, rfl⟩
    · rename_i hid
      exact .inr ⟨hid, hx⟩

/-- What holds of the recorded builds holds of those that stay. -/
theorem forall_find?_evict {P : BuildId → Build → Prop}
    (h : ∀ id b, l.find? id = some b → P id b) (id : BuildId) (x : Build)
    (hx : l.evict.find? id = some x) : P id x := by
  rw [find?_evict] at hx
  split at hx
  · cases hx
  · exact h id x hx

theorem history_evict (l : Ledger) :
    l.evict.history = l.history.drop (l.history.length - l.historyLimit) := rfl

/-! ## Builds of one kind -/

def idsWhere (l : Ledger) (p : Build → Bool) : List BuildId :=
  (l.builds.toList.filter p).map Build.id

theorem mem_idsWhere {p : Build → Bool} :
    id ∈ l.idsWhere p ↔ ∃ b, l.find? id = some b ∧ p b = true := by
  rw [idsWhere, List.mem_map]
  constructor
  · rintro ⟨b, hb, rfl⟩
    obtain ⟨hmem, hp⟩ := List.mem_filter.1 hb
    exact ⟨b, mem_builds_iff.1 hmem, hp⟩
  · rintro ⟨b, hb, hp⟩
    obtain rfl := id_of_find? hb
    exact ⟨b, List.mem_filter.2 ⟨mem_builds_iff.2 hb, hp⟩, rfl⟩

theorem nodup_idsWhere (l : Ledger) (p : Build → Bool) : (l.idsWhere p).Nodup := by
  apply List.pairwise_map.2
  apply List.Pairwise.sublist List.filter_sublist
  apply l.builds.ordered.imp
  intro a b hlt heq
  have hkey : a.key = b.key := congrArg BuildId.text heq
  rw [hkey] at hlt
  exact String.lt_irrefl _ hlt

/-! ## Histories -/

/-- The builds of the history ended, as far as they are kept. -/
def ListsEnds (l : Ledger) : Prop :=
  ∀ id b, id ∈ l.history → l.find? id = some b → b.isTerminal = true

/-- A build that is open is not dropped. -/
theorem ListsEnds.not_mem_surplus (h : l.ListsEnds) (hb : l.find? id = some b)
    (hopen : b.isTerminal = false) : id ∉ l.surplus := by
  intro hmem
  rw [h id b (List.mem_of_mem_take hmem) hb] at hopen
  cases hopen

theorem ListsEnds.evict (h : l.ListsEnds) : l.evict.ListsEnds := by
  intro id b hid hb
  rw [find?_evict] at hb
  split at hb
  · cases hb
  · exact h id b (List.mem_of_mem_drop hid) hb

/-- An open build is written anew, whatever becomes of it. -/
theorem ListsEnds.put (h : l.ListsEnds) (hb : l.find? b'.id = some b)
    (hopen : b.isTerminal = false) : (l.put b').ListsEnds := by
  intro id x hid hx
  rw [find?_put] at hx
  split at hx
  · rename_i heq
    rw [heq] at hid
    rw [h b'.id b hid hb] at hopen
    cases hopen
  · exact h id x hid hx

theorem ListsEnds.close (h : l.ListsEnds) (hend : b'.isTerminal = true) (counters : Counters) :
    ListsEnds { l.put b' with counters, history := l.history ++ [b'.id] } := by
  intro id x hid hx
  change (l.put b').find? id = some x at hx
  rw [find?_put] at hx
  split at hx
  · cases hx
    exact hend
  · rename_i hne
    rcases List.mem_append.1 hid with hold | hnew
    · exact h id x hold hx
    · exact absurd (List.mem_singleton.1 hnew) hne

theorem ListsEnds.archive (h : l.ListsEnds) (hend : b'.isTerminal = true) :
    (l.archive b').ListsEnds :=
  (h.close hend _).evict

/-- The build that ended last is kept. -/
theorem find?_archive_self {c : Build} (h : l.ListsEnds) (hb : l.find? c.id = some b)
    (hopen : b.isTerminal = false) (hlimit : 1 ≤ l.historyLimit) :
    (l.archive c).find? c.id = some c := by
  rw [find?_archive]
  split
  · rename_i hout
    exfalso
    have hlen : (l.history ++ [c.id]).length - l.historyLimit ≤ l.history.length := by
      rw [List.length_append, List.length_singleton]
      omega
    rw [List.take_append_of_le_length hlen] at hout
    rw [h c.id b (List.mem_of_mem_take hout) hb] at hopen
    cases hopen
  · exact find?_put_self l c

/-! ## Sound records -/

structure Records (given : List BuildId) (l : Ledger) : Prop where
  numbered : ∀ id b, l.find? id = some b → Numbered given id b.sequence
  next : l.nextSequence = given.length + 1
  worker : ∀ id b, l.find? id = some b → b.worker.isSome = b.status.holdsWorker
  ended : ∀ id, id ∈ l.history ↔ ∃ b, l.find? id = some b ∧ b.isTerminal = true
  once : l.history.Nodup

namespace Records

theorem empty (maxRetries historyLimit : Nat) :
    Records [] (Ledger.empty maxRetries historyLimit) where
  numbered _ _ h := by cases h
  next := rfl
  worker _ _ h := by cases h
  ended id := by
    constructor
    · intro h; cases h
    · rintro ⟨b, h, -⟩; cases h
  once := List.nodup_nil

/-- A new record of an open build, which stays open. -/
theorem put (h : Records given l) (hb : l.find? b'.id = some b) (hseq : b'.sequence = b.sequence)
    (hopen : b.isTerminal = false) (hopen' : b'.isTerminal = false)
    (hworker : b'.worker.isSome = b'.status.holdsWorker) : Records given (l.put b') where
  numbered := forall_find?_put h.numbered (hseq ▸ h.numbered _ _ hb)
  next := h.next
  worker := forall_find?_put h.worker hworker
  ended id := by
    refine (h.ended id).trans ?_
    rw [find?_put]
    split
    · rename_i hid
      subst hid
      simp [hb, hopen, hopen']
    · rfl
  once := h.once

theorem evict (h : Records given l) : Records given l.evict where
  numbered := forall_find?_evict h.numbered
  next := h.next
  worker := forall_find?_evict h.worker
  ended id := by
    -- The history falls apart into what is dropped and what stays, without a build in both.
    have hsplit := List.take_append_drop (l.history.length - l.historyLimit) l.history
    have hnodup := h.once
    rw [← hsplit, List.nodup_append] at hnodup
    have hmem : id ∈ l.history ↔ id ∈ l.surplus ∨ id ∈ l.evict.history := by
      rw [surplus, history_evict, ← List.mem_append, hsplit]
    have hended := h.ended id
    rw [find?_evict]
    split
    · rename_i hout
      constructor
      · intro hin
        exact absurd rfl (hnodup.2.2 id hout id hin)
      · rintro ⟨x, hx, -⟩
        cases hx
    · rename_i hin
      rw [← hended, hmem]
      simp [hin]
  once := h.once.sublist (List.drop_sublist _ _)

theorem listsEnds (h : Records given l) : l.ListsEnds := by
  intro id b hid hb
  obtain ⟨x, hx, hend⟩ := (h.ended id).1 hid
  rw [hb] at hx
  cases hx
  exact hend

theorem not_mem_surplus (h : Records given l) (hb : l.find? id = some b)
    (hopen : b.isTerminal = false) : id ∉ l.surplus :=
  h.listsEnds.not_mem_surplus hb hopen

/-- An open build ends and enters the history. -/
theorem close (h : Records given l) (hb : l.find? b'.id = some b)
    (hseq : b'.sequence = b.sequence) (hopen : b.isTerminal = false)
    (hend : b'.isTerminal = true) (hworker : b'.worker = none) (counters : Counters) :
    Records given { l.put b' with counters, history := l.history ++ [b'.id] } where
  numbered := forall_find?_put h.numbered (hseq ▸ h.numbered _ _ hb)
  next := h.next
  worker := by
    refine forall_find?_put h.worker ?_
    rw [hworker, BuildStatus.holdsWorker_eq_false_of_isTerminal hend]
    rfl
  ended id := by
    change id ∈ l.history ++ [b'.id] ↔ ∃ x, (l.put b').find? id = some x ∧ x.isTerminal = true
    rw [List.mem_append, List.mem_singleton, h.ended id, find?_put]
    split
    · rename_i hid
      simp [hid, hend]
    · rename_i hid
      simp [hid]
  once := by
    change (l.history ++ [b'.id]).Nodup
    rw [List.nodup_append]
    refine ⟨h.once, by simp, ?_⟩
    intro x hx y hy hxy
    rw [List.mem_singleton] at hy
    obtain ⟨z, hz, hzend⟩ := (h.ended x).1 hx
    rw [hxy, hy, hb] at hz
    cases hz
    rw [hopen] at hzend
    cases hzend

theorem archive (h : Records given l) (hb : l.find? b'.id = some b)
    (hseq : b'.sequence = b.sequence) (hopen : b.isTerminal = false)
    (hend : b'.isTerminal = true) (hworker : b'.worker = none) :
    Records given (l.archive b') :=
  (h.close hb hseq hopen hend hworker _).evict

/-- No two builds have one number. -/
theorem eq_of_sequence_eq {c : Build} {id' : BuildId} (h : Records given l)
    (hb : l.find? id = some b) (hc : l.find? id' = some c) (hseq : b.sequence = c.sequence) :
    b = c := by
  have hnum := h.numbered id b hb
  rw [hseq] at hnum
  rw [hnum.id_eq (h.numbered id' c hc), hc] at hb
  exact (Option.some.inj hb).symm

theorem find?_eq_none (h : Records given l) (hnew : id ∉ given) : l.find? id = none := by
  cases hf : l.find? id with
  | none => rfl
  | some b => exact absurd (h.numbered id b hf).mem hnew

/-- A new build gets the next number. -/
theorem add (h : Records given l) (hnew : b.id ∉ given) (hseq : b.sequence = l.nextSequence)
    (hopen : b.isTerminal = false) (hworker : b.worker.isSome = b.status.holdsWorker)
    (counters : Counters) :
    Records (given ++ [b.id])
      { l.put b with nextSequence := l.nextSequence + 1, counters } where
  numbered := by
    refine forall_find?_put (fun id x hx => (h.numbered id x hx).append [b.id]) ?_
    rw [hseq, h.next]
    exact Numbered.last given b.id
  next := by
    change l.nextSequence + 1 = (given ++ [b.id]).length + 1
    rw [h.next, List.length_append, List.length_singleton]
  worker := forall_find?_put h.worker hworker
  ended id := by
    change id ∈ l.history ↔ ∃ x, (l.put b).find? id = some x ∧ x.isTerminal = true
    rw [h.ended id, find?_put]
    split
    · rename_i hid
      rw [hid, h.find?_eq_none hnew]
      simp [hopen]
    · rfl
  once := h.once

/-- Counting something else and moving entries leaves the records as they are. -/
theorem withQueue (h : Records given l) (backlog : Backlog) (counters : Counters) :
    Records given { l with backlog, counters } :=
  ⟨h.numbered, h.next, h.worker, h.ended, h.once⟩

/-- A build that stays, or had ended and is dropped, can be told from the histories. -/
theorem find?_eq_of_stays (h : Records given l) {given' : List BuildId} {l' : Ledger}
    (h' : Records given' l')
    (hstays : l'.find? id = l.find? id ∨ (l'.find? id = none ∧ id ∈ l.history)) :
    l'.find? id = if id ∈ l.history ∧ id ∉ l'.history then none else l.find? id := by
  by_cases hin : id ∈ l.history
  · obtain ⟨b, hb, hend⟩ := (h.ended id).1 hin
    rcases hstays with hsame | ⟨hgone, -⟩
    · have hstill : id ∈ l'.history := (h'.ended id).2 ⟨b, hsame.trans hb, hend⟩
      rw [if_neg fun hc => hc.2 hstill, hsame]
    · have hout : id ∉ l'.history := fun hmem => by
        obtain ⟨x, hx, -⟩ := (h'.ended id).1 hmem
        rw [hgone] at hx
        cases hx
      rw [if_pos ⟨hin, hout⟩, hgone]
  · rcases hstays with hsame | ⟨-, hmem⟩
    · rw [if_neg fun hc => hin hc.1, hsame]
    · exact absurd hmem hin

end Records

/-! ## Builds with workers -/

/-- The build is known, and assigned to the worker or running on it. -/
def HeldBy (l : Ledger) (id : BuildId) (w : WorkerId) : Prop :=
  ∃ b, l.find? id = some b ∧ b.heldBy w = true

theorem heldBy_put {x : WorkerId} :
    (l.put b).HeldBy id x ↔ (id = b.id ∧ b.heldBy x = true) ∨ (id ≠ b.id ∧ l.HeldBy id x) := by
  unfold HeldBy
  rw [find?_put]
  by_cases h : id = b.id
  · simp [h]
  · simp [h]

theorem heldBy_unique {x y : WorkerId} (hx : l.HeldBy id x) (hy : l.HeldBy id y) : x = y := by
  obtain ⟨b, hb, hbx⟩ := hx
  obtain ⟨b', hb', hby⟩ := hy
  rw [hb] at hb'
  cases hb'
  have h := (Build.heldBy_iff.1 hbx).2
  rw [(Build.heldBy_iff.1 hby).2] at h
  exact (Option.some.inj h).symm

theorem heldBy_evict (h : Records given l) {x : WorkerId} :
    l.evict.HeldBy id x ↔ l.HeldBy id x := by
  unfold HeldBy
  rw [find?_evict]
  split
  · rename_i hout
    constructor
    · rintro ⟨b, hb, -⟩
      cases hb
    · rintro ⟨b, hb, hx⟩
      have hopen := Build.isTerminal_eq_false_of_heldBy hx
      exact absurd hout (h.not_mem_surplus hb hopen)
  · rfl

end Ledger

end BuildPool
