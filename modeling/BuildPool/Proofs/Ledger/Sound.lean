import BuildPool.Proofs.Ledger.Queue

/-!
# Sound ledgers

A ledger is sound if its records are and its backlog lists its queued builds. Each operation keeps a
ledger sound, and changes which builds are with workers in just one place.
-/

namespace BuildPool

open BuildPool.Time

namespace Ledger

structure Sound (given : List BuildId) (l : Ledger) : Prop where
  records : Records given l
  lists : Lists given l l.backlog.toList

variable {given : List BuildId} {l l' : Ledger} {b c : Build} {id x : BuildId} {w y : WorkerId}
  {now : Instant}

/-! ## Changes of one record -/

namespace Sound

theorem empty (maxRetries historyLimit : Nat) :
    Sound [] (Ledger.empty maxRetries historyLimit) where
  records := Records.empty maxRetries historyLimit
  lists := {
    waits _ _ h := by cases h
    numbered e h := by cases h
    live e h := by cases h
    once := List.nodup_nil }

/-- Counting leaves a ledger sound. -/
theorem count (h : Sound given l) (counters : Counters) : Sound given { l with counters } where
  records := h.records.withQueue l.backlog counters
  lists := h.lists.of_find?_eq fun _ => rfl

theorem put_held (h : Sound given l) (hb : l.find? c.id = some b)
    (hseq : c.sequence = b.sequence) (hw : b.status.holdsWorker = true)
    (hw' : c.status.holdsWorker = true) (hworker : c.worker = b.worker) :
    Sound given (l.put c) where
  records := by
    refine h.records.put hb hseq (Build.isTerminal_eq_false_of_holdsWorker hw)
      (Build.isTerminal_eq_false_of_holdsWorker hw') ?_
    rw [hworker, h.records.worker _ _ hb, hw, hw']
  lists := h.lists.put_held hb hw hw'

theorem requeue (h : Sound given l) (hb : l.find? c.id = some b)
    (hseq : c.sequence = b.sequence) (hw : b.status.holdsWorker = true)
    (hq : c.status = .queued) (hnone : c.worker = none) :
    Sound given ((l.put c).enqueue c) where
  records := by
    refine (h.records.put hb hseq (Build.isTerminal_eq_false_of_holdsWorker hw)
      (Build.isTerminal_eq_false_of_queued hq) ?_).withQueue _ l.counters
    rw [hnone, hq]
    rfl
  lists := by
    have hnum : Numbered given c.id c.sequence := hseq ▸ h.records.numbered _ _ hb
    have hcons := h.lists.requeue hnum hb hw hq
    exact (hcons.perm (Backlog.perm_push l.backlog c.entry).symm).of_find?_eq fun _ => rfl

theorem archive (h : Sound given l) (hb : l.find? c.id = some b)
    (hseq : c.sequence = b.sequence) (hopen : b.isTerminal = false)
    (hend : c.isTerminal = true) (hnone : c.worker = none) : Sound given (l.archive c) where
  records := h.records.archive hb hseq hopen hend hnone
  lists := h.lists.archive hend

theorem evict (h : Sound given l) : Sound given l.evict where
  records := h.records.evict
  lists := h.lists.evict

end Sound

/-! ## Who holds what after it -/

theorem heldBy_put_of_worker_eq (hb : l.find? c.id = some b) (hw : b.status.holdsWorker = true)
    (hw' : c.status.holdsWorker = true) (hworker : c.worker = b.worker) :
    (l.put c).HeldBy x y ↔ l.HeldBy x y := by
  rw [heldBy_put]
  by_cases hx : x = c.id
  · subst hx
    simp [HeldBy, hb, Build.heldBy_iff, hw, hw', hworker]
  · simp [hx]

theorem heldBy_put_of_free (hfree : c.status.holdsWorker = false) :
    (l.put c).HeldBy x y ↔ l.HeldBy x y ∧ x ≠ c.id := by
  rw [heldBy_put, Build.heldBy_iff, hfree]
  by_cases hx : x = c.id
  · simp [hx]
  · simp [hx]

theorem heldBy_archive (h : Records given l) (hb : l.find? c.id = some b)
    (hseq : c.sequence = b.sequence) (hopen : b.isTerminal = false)
    (hend : c.isTerminal = true) (hnone : c.worker = none) :
    (l.archive c).HeldBy x y ↔ l.HeldBy x y ∧ x ≠ c.id :=
  (heldBy_evict (h.close hb hseq hopen hend hnone _)).trans
    (heldBy_put_of_free (BuildStatus.holdsWorker_eq_false_of_isTerminal hend))

/-! ## Submission -/

theorem sound_submit {r : Request} (h : Sound given l) (hnew : id ∉ given)
    (hs : l.submit r id now = .ok (b, l')) : Sound (given ++ [id]) l' := by
  obtain ⟨-, rfl, rfl⟩ := submit_eq_ok (h.records.find?_eq_none hnew) hs
  have hnum : Numbered (given ++ [id]) id l.nextSequence := by
    rw [h.records.next]
    exact Numbered.last given id
  constructor
  · exact (h.records.add (b := .ofRequest r id l.nextSequence now) hnew rfl rfl rfl
      l.counters).withQueue _ _
  · have hcons := h.lists.add (b := .ofRequest r id l.nextSequence now) hnew hnum rfl
    exact (hcons.perm (Backlog.perm_push l.backlog _).symm).of_find?_eq fun _ => rfl

theorem heldBy_submit {r : Request} (h : Sound given l) (hnew : id ∉ given)
    (hs : l.submit r id now = .ok (b, l')) : l'.HeldBy x y ↔ l.HeldBy x y := by
  have hnone := h.records.find?_eq_none hnew
  obtain ⟨-, rfl, rfl⟩ := submit_eq_ok hnone hs
  refine (heldBy_put_of_free (l := l) (c := .ofRequest r id l.nextSequence now) rfl).trans ?_
  constructor
  · exact And.left
  · rintro ⟨a, ha, hy⟩
    refine ⟨⟨a, ha, hy⟩, fun hx => ?_⟩
    change x = id at hx
    rw [hx, hnone] at ha
    cases ha

/-! ## Answers to a dispatch -/

theorem sound_acknowledge? {attempt : Nat} (h : Sound given l)
    (hs : l.acknowledge? id w attempt = some l') :
    Sound given l' ∧ ∀ x y, l'.HeldBy x y ↔ l.HeldBy x y := by
  obtain ⟨b, hb, ha, rfl⟩ := acknowledge?_eq_some hs
  obtain ⟨-, -, hheld⟩ := Build.awaits_iff.1 ha
  obtain ⟨hw, -⟩ := Build.heldBy_iff.1 hheld
  obtain rfl := id_of_find? hb
  exact ⟨h.put_held hb rfl hw rfl rfl, fun x y => heldBy_put_of_worker_eq hb hw rfl rfl⟩

theorem sound_rollback? {attempt : Nat} (h : Sound given l)
    (hs : l.rollback? id w attempt = some l') :
    Sound given l' ∧ ∀ x y, l'.HeldBy x y ↔ l.HeldBy x y ∧ x ≠ id := by
  obtain ⟨b, hb, ha, rfl⟩ := rollback?_eq_some hs
  obtain ⟨-, -, hheld⟩ := Build.awaits_iff.1 ha
  obtain ⟨hw, -⟩ := Build.heldBy_iff.1 hheld
  obtain rfl := id_of_find? hb
  exact ⟨h.requeue hb rfl hw rfl rfl, fun x y => heldBy_put_of_free rfl⟩

/-! ## Reports -/

theorem sound_progress {amount : Float} (h : Sound given l)
    (hs : l.progress id w amount = .ok (some l')) :
    Sound given l' ∧ ∀ x y, l'.HeldBy x y ↔ l.HeldBy x y := by
  obtain ⟨b, hb, hheld, rfl⟩ := progress_eq_ok hs
  obtain ⟨hw, -⟩ := Build.heldBy_iff.1 hheld
  obtain rfl := id_of_find? hb
  have hw' := Build.advance_holdsWorker hw amount
  have hworker := Build.advance_worker b amount
  have hsub := Build.advance_submission b amount
  simp only [Build.submission, Prod.mk.injEq] at hsub
  obtain ⟨hid, -, -, -, -, -, -, hseq⟩ := hsub
  rw [← hid] at hb
  exact ⟨h.put_held hb hseq hw hw' hworker,
    fun x y => heldBy_put_of_worker_eq hb hw hw' hworker⟩

theorem sound_complete {r : Report} (h : Sound given l)
    (hs : l.complete id r now = .ok (some l')) :
    Sound given l' ∧ (∀ x y, l'.HeldBy x y ↔ l.HeldBy x y ∧ x ≠ id) ∧ l.HeldBy id r.worker := by
  obtain ⟨b, hb, hheld, rfl⟩ := complete_eq_ok hs
  have hopen := Build.isTerminal_eq_false_of_heldBy hheld
  have hend := isTerminal_verdict r
  obtain rfl := id_of_find? hb
  exact ⟨h.archive hb rfl hopen hend rfl, fun x y => heldBy_archive h.records hb rfl hopen hend rfl,
    b, hb, hheld⟩

/-! ## Loss, cancellation, cache -/

theorem sound_lose (h : Sound given l) (id : BuildId) (w : WorkerId) (now : Instant) :
    Sound given (l.lose id w now).2 ∧
      ∀ x y, (l.lose id w now).2.HeldBy x y ↔ l.HeldBy x y ∧ ¬ (x = id ∧ y = w) := by
  -- Only one worker holds a build, so without its build the pair is gone.
  have hpair : l.HeldBy id w → ∀ x y, (l.HeldBy x y ∧ x ≠ id) ↔
      (l.HeldBy x y ∧ ¬ (x = id ∧ y = w)) := by
    intro hheld x y
    by_cases hx : x = id
    · subst hx
      simp only [ne_eq, not_true_eq_false, and_false, true_and, false_iff, not_and]
      exact fun hy hne => hne (heldBy_unique hy hheld)
    · simp [hx]
  rcases lose_cases l id w now with ⟨hnot, heq⟩ | ⟨b, hb, hheld, ⟨-, heq⟩ | ⟨-, heq⟩⟩
  · rw [heq]
    refine ⟨h, fun x y => ?_⟩
    constructor
    · rintro ⟨a, ha, hy⟩
      refine ⟨⟨a, ha, hy⟩, ?_⟩
      rintro ⟨rfl, rfl⟩
      rw [hnot a ha] at hy
      cases hy
    · exact And.left
  · obtain rfl := id_of_find? hb
    have hopen := Build.isTerminal_eq_false_of_heldBy hheld
    rw [heq]
    refine ⟨h.archive hb rfl hopen rfl rfl, fun x y => ?_⟩
    refine Iff.trans ?_ (hpair ⟨b, hb, hheld⟩ x y)
    exact heldBy_archive h.records hb rfl hopen rfl rfl
  · obtain rfl := id_of_find? hb
    have hw := (Build.heldBy_iff.1 hheld).1
    rw [heq]
    have hback := h.requeue (b := b) (c := { b with retries := b.retries + 1 }.requeue)
      hb rfl hw rfl rfl
    refine ⟨hback.count _, fun x y => ?_⟩
    refine Iff.trans ?_ (hpair ⟨b, hb, hheld⟩ x y)
    exact heldBy_put_of_free rfl

theorem sound_cancel {answer : Cancellation} (h : Sound given l)
    (hs : l.cancel id now = .ok (answer, l')) :
    Sound given l' ∧ (∀ x y, l'.HeldBy x y ↔ l.HeldBy x y ∧ ¬ (answer.changed = true ∧ x = id)) ∧
      (answer.changed = true → ∀ y, answer.released = some y ↔ l.HeldBy id y) := by
  obtain ⟨b, hb, ⟨-, rfl, rfl⟩ | ⟨hopen, rfl, rfl⟩⟩ := cancel_eq_ok hs
  · exact ⟨h, fun x y => by simp, fun hno => by cases hno⟩
  · obtain rfl := id_of_find? hb
    refine ⟨h.archive hb rfl hopen rfl rfl, fun x y => ?_, fun _ y => ?_⟩
    · refine Iff.trans (b := l.HeldBy x y ∧ x ≠ b.id) ?_ (by simp)
      exact heldBy_archive h.records hb rfl hopen rfl rfl
    · have hworker := h.records.worker _ _ hb
      simp only [HeldBy, hb, Option.some.injEq, exists_eq_left', Build.heldBy_iff]
      constructor
      · intro hy
        rw [hy] at hworker
        exact ⟨hworker.symm, hy⟩
      · exact And.right

theorem sound_satisfy? {artifacts : List String} (h : Sound given l)
    (hs : l.satisfy? id artifacts now = some l') :
    Sound given l' ∧ ∀ x y, l'.HeldBy x y ↔ l.HeldBy x y := by
  obtain ⟨b, hb, hq, rfl⟩ := satisfy?_eq_some hs
  obtain rfl := id_of_find? hb
  have hopen := Build.isTerminal_eq_false_of_queued hq
  have hcount := h.count { l.counters with cacheHits := l.counters.cacheHits + 1 }
  refine ⟨hcount.archive hb rfl hopen rfl rfl, fun x y => ?_⟩
  refine Iff.trans (b := l.HeldBy x y ∧ x ≠ b.id)
    (heldBy_archive hcount.records hb rfl hopen rfl rfl) ?_
  constructor
  · exact And.left
  · rintro ⟨a, ha, hy⟩
    refine ⟨⟨a, ha, hy⟩, ?_⟩
    rintro rfl
    change l.find? b.id = some a at ha
    rw [hb] at ha
    cases ha
    exact Build.not_heldBy_of_queued hq y hy

end Ledger

end BuildPool
