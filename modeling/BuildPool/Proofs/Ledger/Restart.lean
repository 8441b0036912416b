import BuildPool.Ledger.Image
import BuildPool.Proofs.Ledger.Sound

/-!
# Restarts of a ledger

A ledger that is rebuilt from its own image has the same builds, in a new backlog. Then every build
that was with a worker loses it, so nobody holds a build after a restart.
-/

namespace BuildPool

open BuildPool.Time

namespace Ledger

variable {given : List BuildId} {l : Ledger} {b : Build} {id : BuildId} {w : WorkerId}

theorem mem_bySequence {bs : List Build} : b ∈ bySequence bs ↔ b ∈ bs := List.mem_mergeSort

theorem bySequence_ordered (bs : List Build) :
    (bySequence bs).Pairwise fun a b => a.sequence ≤ b.sequence := by
  have hsorted : (bySequence bs).Pairwise fun a b => decide (a.sequence ≤ b.sequence) = true := by
    refine List.pairwise_mergeSort ?_ ?_ bs
    · intro a b c hab hbc
      rw [decide_eq_true_eq] at hab hbc ⊢
      omega
    · intro a b
      rw [Bool.or_eq_true, decide_eq_true_eq, decide_eq_true_eq]
      omega
  exact hsorted.imp of_decide_eq_true

/-! ## Entering the builds of an image -/

/-- Entering builds writes the builds and the backlog, and nothing else. -/
theorem foldl_enter (bs : List Build) (l : Ledger) :
    bs.foldl enter l =
      { l with
        builds := bs.foldl Catalog.insert l.builds
        backlog := (bs.foldl enter l).backlog } := by
  induction bs generalizing l with
  | nil => rfl
  | cons b rest ih =>
    have hone : l.enter b =
        { l with builds := l.builds.insert b, backlog := (l.enter b).backlog } := by
      unfold enter
      split <;> rfl
    rw [List.foldl_cons, List.foldl_cons, ih, hone]

theorem builds_foldl_enter (bs : List Build) (l : Ledger) :
    (bs.foldl enter l).builds = bs.foldl Catalog.insert l.builds := by rw [foldl_enter]

theorem backlog_foldl_enter (bs : List Build) (l : Ledger) :
    (bs.foldl enter l).backlog.toList.Perm
      ((bs.filter (·.status == .queued)).map Build.entry ++ l.backlog.toList) := by
  induction bs generalizing l with
  | nil => exact .refl _
  | cons b rest ih =>
    rw [List.foldl_cons]
    refine (ih (l.enter b)).trans ?_
    unfold enter
    by_cases hq : b.status = .queued
    · rw [if_pos hq, List.filter_cons_of_pos (by simp [hq])]
      refine ((Backlog.perm_push l.backlog b.entry).append_left _).trans ?_
      exact List.perm_middle
    · rw [if_neg hq, List.filter_cons_of_neg (by simp [hq])]
      exact .refl _

theorem foldl_max_le {ns : List Nat} {m n : Nat} (hm : m ≤ n) (h : ∀ k ∈ ns, k ≤ n) :
    ns.foldl max m ≤ n := by
  induction ns generalizing m with
  | nil => exact hm
  | cons k rest ih =>
    have hk := h k List.mem_cons_self
    rw [List.foldl_cons]
    exact ih (by omega) fun x hx => h x (List.mem_cons_of_mem k hx)

theorem lastSequence_le {bs : List Build} {n : Nat} (h : ∀ b ∈ bs, b.sequence ≤ n) :
    lastSequence bs ≤ n := by
  refine foldl_max_le (Nat.zero_le n) fun k hk => ?_
  obtain ⟨b, hb, rfl⟩ := List.mem_map.1 hk
  exact h b hb

/-! ## The ledger before workers are given up -/

theorem find?_reopen (l : Ledger) (maxRetries historyLimit : Nat) (id : BuildId) :
    (reopen l.toImage maxRetries historyLimit).find? id = l.find? id := by
  unfold reopen find?
  simp only [builds_foldl_enter]
  refine Option.ext fun b => ?_
  have hinj : ∀ a ∈ bySequence l.builds.toList, ∀ b ∈ bySequence l.builds.toList,
      a.key = b.key → a = b := fun a ha b hb =>
    Catalog.eq_of_key_eq (mem_bySequence.1 ha) (mem_bySequence.1 hb)
  refine (Catalog.find?_ofList_eq_some_iff hinj).trans ?_
  rw [Catalog.find?_eq_some_iff, mem_bySequence, Catalog.mem_toList]

theorem builds_reopen (l : Ledger) (maxRetries historyLimit : Nat) :
    (reopen l.toImage maxRetries historyLimit).builds = l.builds :=
  Catalog.ext_find? fun k => find?_reopen l maxRetries historyLimit ⟨k⟩

theorem inFlight_reopen (l : Ledger) (maxRetries historyLimit : Nat) :
    (reopen l.toImage maxRetries historyLimit).inFlight = l.inFlight := by
  unfold inFlight
  rw [builds_reopen]

theorem history_reopen (h : Records given l) (maxRetries historyLimit : Nat) :
    (reopen l.toImage maxRetries historyLimit).history = l.history := by
  have hfind := find?_reopen l maxRetries historyLimit
  unfold reopen at hfind ⊢
  refine List.filter_eq_self.2 fun id hid => ?_
  obtain ⟨b, hb, hend⟩ := (h.ended id).1 hid
  rw [← hfind id] at hb
  exact (Option.any_eq_true ..).2 ⟨b, hb, hend⟩

theorem nextSequence_reopen (h : Records given l) (maxRetries historyLimit : Nat) :
    (reopen l.toImage maxRetries historyLimit).nextSequence = l.nextSequence := by
  have hlast : lastSequence (bySequence l.builds.toList) ≤ given.length := by
    refine lastSequence_le fun b hb => ?_
    exact (h.numbered b.id b (mem_builds_iff.1 (mem_bySequence.1 hb))).le_length
  have hnext := h.next
  change max l.nextSequence (lastSequence (bySequence l.builds.toList) + 1) = l.nextSequence
  omega

theorem sound_reopen (h : Sound given l) (maxRetries historyLimit : Nat) :
    Sound given (reopen l.toImage maxRetries historyLimit) := by
  have hfind := find?_reopen l maxRetries historyLimit
  have hrecords : Records given (reopen l.toImage maxRetries historyLimit) := by
    constructor
    · intro id b hb
      exact h.records.numbered id b (by rw [← hfind, hb])
    · rw [nextSequence_reopen h.records, h.records.next]
    · intro id b hb
      exact h.records.worker id b (by rw [← hfind, hb])
    · intro id
      rw [history_reopen h.records, hfind]
      exact h.records.ended id
    · rw [history_reopen h.records]
      exact h.records.once
  refine ⟨hrecords, ?_⟩
  have hperm := backlog_foldl_enter (bySequence l.builds.toList) (empty maxRetries historyLimit)
  rw [show (empty maxRetries historyLimit).backlog.toList = [] from rfl, List.append_nil] at hperm
  refine (Lists.of_builds hrecords ?_ fun b => ?_).perm hperm.symm
  · exact ((List.mergeSort_perm _ _).nodup_iff.2 l.builds.nodup_items).sublist List.filter_sublist
  · rw [List.mem_filter, mem_bySequence, Catalog.mem_toList, mem_builds_iff, hfind]
    simp

/-! ## Giving up workers -/

theorem mem_inFlight : (id, w) ∈ l.inFlight ↔ l.HeldBy id w := by
  unfold inFlight HeldBy
  rw [List.mem_filterMap]
  constructor
  · rintro ⟨b, hb, hw⟩
    rw [mem_bySequence, List.mem_filter, Catalog.mem_toList, mem_builds_iff] at hb
    simp only [Option.map_eq_some_iff, Prod.mk.injEq] at hw
    obtain ⟨v, hv, rfl, rfl⟩ := hw
    exact ⟨b, hb.1, Build.heldBy_iff.2 ⟨hb.2, hv⟩⟩
  · rintro ⟨b, hb, hheld⟩
    obtain ⟨hw, hworker⟩ := Build.heldBy_iff.1 hheld
    obtain rfl := id_of_find? hb
    refine ⟨b, ?_, by rw [hworker]; rfl⟩
    rw [mem_bySequence, List.mem_filter, Catalog.mem_toList, mem_builds_iff]
    exact ⟨hb, hw⟩

theorem loseAll_cons (now : Instant) (id : BuildId) (w : WorkerId)
    (rest : List (BuildId × WorkerId)) (l : Ledger) :
    loseAll now ((id, w) :: rest) l =
      ((id, (l.lose id w now).1) :: (loseAll now rest (l.lose id w now).2).1,
        (loseAll now rest (l.lose id w now).2).2) := rfl

theorem loseAll_append (now : Instant) (pairs more : List (BuildId × WorkerId)) (l : Ledger) :
    loseAll now (pairs ++ more) l =
      ((loseAll now pairs l).1 ++ (loseAll now more (loseAll now pairs l).2).1,
        (loseAll now more (loseAll now pairs l).2).2) := by
  induction pairs generalizing l with
  | nil => rfl
  | cons pair rest ih =>
    obtain ⟨id, w⟩ := pair
    rw [List.cons_append, loseAll_cons, loseAll_cons, ih]
    rfl

theorem sound_loseAll (now : Instant) (pairs : List (BuildId × WorkerId)) (h : Sound given l) :
    Sound given (loseAll now pairs l).2 ∧
      ∀ x y, (loseAll now pairs l).2.HeldBy x y ↔ l.HeldBy x y ∧ (x, y) ∉ pairs := by
  induction pairs generalizing l with
  | nil => exact ⟨h, fun x y => by simp [loseAll]⟩
  | cons pair rest ih =>
    obtain ⟨id, w⟩ := pair
    obtain ⟨hsound, hheld⟩ := sound_lose h id w now
    obtain ⟨hsound', hheld'⟩ := ih hsound
    refine ⟨hsound', fun x y => (hheld' x y).trans ?_⟩
    rw [hheld x y, List.mem_cons, Prod.mk.injEq, not_or, and_assoc]

/-- After a restart the ledger is sound, and no build is with a worker. -/
theorem sound_ofImage (h : Sound given l) (maxRetries historyLimit : Nat) (now : Instant) :
    Sound given (ofImage l.toImage maxRetries historyLimit now).2 ∧
      ∀ x y, ¬ (ofImage l.toImage maxRetries historyLimit now).2.HeldBy x y := by
  have hopen := sound_reopen h maxRetries historyLimit
  obtain ⟨hsound, hheld⟩ := sound_loseAll now
    (reopen l.toImage maxRetries historyLimit).inFlight hopen
  refine ⟨hsound.evict, fun x y hxy => ?_⟩
  obtain ⟨hin, hout⟩ := (hheld x y).1 ((heldBy_evict hsound.records).1 hxy)
  exact hout (mem_inFlight.2 hin)

end Ledger

end BuildPool
