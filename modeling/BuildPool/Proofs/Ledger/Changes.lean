import BuildPool.Proofs.Ledger.Limits

/-!
# Changes of a record

All that an operation can make of the record of a build, and why. Whatever is to hold of builds over
time is read off these changes: what was submitted stays, only open builds change, and a status
leads on to few others.
-/

namespace BuildPool

open BuildPool.Time

/-! ## One record -/

/-- The ways of a build from one status to another. -/
def BuildStatus.leadsTo : BuildStatus → BuildStatus → Bool
  | .queued, .assigned | .queued, .completed | .queued, .cancelled => true
  | .assigned, .running => true
  | .assigned, .completed | .assigned, .failed | .assigned, .cancelled => true
  | .running, .completed | .running, .failed | .running, .cancelled => true
  | .assigned, .queued | .running, .queued => true
  | _, _ => false

/-- Why the record of a build is written anew. -/
inductive Cause
  | assignment
  | acknowledgement
  | rollback
  | progress
  | report
  | loss
  | cancellation
  | cacheHit
deriving DecidableEq

namespace Build

inductive Change (maxRetries : Nat) : Cause → Build → Build → Prop
  | assigned {b : Build} (w : WorkerId) (now : Instant) (waits : b.status = .queued) :
    Change maxRetries .assignment b (b.assignTo w now)
  | started {b : Build} (waits : b.status = .assigned) :
    Change maxRetries .acknowledgement b b.start
  | rolledBack {b : Build} (waits : b.status = .assigned) :
    Change maxRetries .rollback b b.requeue
  | advanced {b : Build} (amount : Float) (held : b.status.holdsWorker = true) :
    Change maxRetries .progress b (b.advance amount)
  | reported {b : Build} (r : Report) (now : Instant) (held : b.status.holdsWorker = true) :
    Change maxRetries .report b (b.finish (Ledger.verdict r).1 (Ledger.verdict r).2 now)
  | requeued {b : Build} (held : b.status.holdsWorker = true) (left : b.retries < maxRetries) :
    Change maxRetries .loss b { b with retries := b.retries + 1 }.requeue
  | exhausted {b : Build} (now : Instant) (held : b.status.holdsWorker = true)
    (spent : maxRetries ≤ b.retries) :
    Change maxRetries .loss b
      ({ b with retries := maxRetries }.finish .failed (.failure retriesExhausted) now)
  | cancelled {b : Build} (now : Instant) (isOpen : b.isTerminal = false) :
    Change maxRetries .cancellation b (b.finish .cancelled (.failure cancelledReason) now)
  | satisfied {b : Build} (artifacts : List String) (now : Instant) (waits : b.status = .queued) :
    Change maxRetries .cacheHit b (b.finish .completed { success := true, artifacts } now)

namespace Change

variable {maxRetries : Nat} {k : Cause} {b b' : Build}

theorem submission_eq (h : Change maxRetries k b b') : b'.submission = b.submission := by
  cases h with
  | advanced amount _ => exact b.advance_submission amount
  | _ => rfl

theorem id_eq (h : Change maxRetries k b b') : b'.id = b.id := congrArg Prod.fst h.submission_eq

/-- Only open builds change. -/
theorem isTerminal_eq_false (h : Change maxRetries k b b') : b.isTerminal = false := by
  cases h with
  | assigned _ _ waits => exact isTerminal_eq_false_of_queued waits
  | started waits => rw [isTerminal, waits]; rfl
  | rolledBack waits => rw [isTerminal, waits]; rfl
  | advanced _ held => exact isTerminal_eq_false_of_holdsWorker held
  | reported _ _ held => exact isTerminal_eq_false_of_holdsWorker held
  | requeued held _ => exact isTerminal_eq_false_of_holdsWorker held
  | exhausted _ held _ => exact isTerminal_eq_false_of_holdsWorker held
  | cancelled _ isOpen => exact isOpen
  | satisfied _ _ waits => exact isTerminal_eq_false_of_queued waits

theorem leadsTo_of_holdsWorker {s s' : BuildStatus} (hs : s.holdsWorker = true)
    (hs' : s' = .queued ∨ s'.isTerminal = true) : s.leadsTo s' = true := by
  rcases BuildStatus.holdsWorker_iff.1 hs with rfl | rfl
  · rcases hs' with rfl | hend
    · rfl
    · cases s' <;> first | rfl | cases hend
  · rcases hs' with rfl | hend
    · rfl
    · cases s' <;> first | rfl | cases hend

theorem leadsTo (h : Change maxRetries k b b') :
    b'.status = b.status ∨ b.status.leadsTo b'.status = true := by
  cases h with
  | assigned _ _ waits => rw [waits]; exact .inr rfl
  | started waits => rw [waits]; exact .inr rfl
  | rolledBack waits => rw [waits]; exact .inr rfl
  | advanced amount held =>
    unfold advance
    split
    · rename_i hassigned
      rw [hassigned]
      exact .inr rfl
    · exact .inl rfl
  | reported r _ held =>
    exact .inr (leadsTo_of_holdsWorker held (.inr (Ledger.isTerminal_verdict r)))
  | requeued held _ => exact .inr (leadsTo_of_holdsWorker held (.inl rfl))
  | exhausted _ held _ => exact .inr (leadsTo_of_holdsWorker held (.inr rfl))
  | cancelled _ isOpen =>
    refine .inr ?_
    change b.status.leadsTo .cancelled = true
    rw [isTerminal] at isOpen
    cases hs : b.status <;> first | rfl | (rw [hs] at isOpen; cases isOpen)
  | satisfied _ _ waits => rw [waits]; exact .inr rfl

/-- Only the cache completes a build that waits. -/
theorem eq_cacheHit (h : Change maxRetries k b b') (hq : b.status = .queued)
    (hend : b'.status = .completed) : k = .cacheHit := by
  cases h with
  | satisfied => rfl
  | advanced _ held | reported _ _ held => rw [hq] at held; cases held
  | assigned | started | rolledBack | requeued | exhausted | cancelled => cases hend

/-- A build comes back to the queue only from a worker, in one of two ways. -/
theorem of_queued (h : Change maxRetries k b b') (hq : b'.status = .queued) :
    k = .rollback ∨ k = .loss := by
  cases h with
  | rolledBack => exact .inl rfl
  | requeued => exact .inr rfl
  | advanced amount held =>
    have hheld := b.advance_holdsWorker held amount
    rw [hq] at hheld
    cases hheld
  | reported r now _ =>
    have hend : (Ledger.verdict r).1.isTerminal = true := Ledger.isTerminal_verdict r
    change (Ledger.verdict r).1 = .queued at hq
    rw [hq] at hend
    cases hend
  | assigned | started | exhausted | cancelled | satisfied => cases hq

/-- Attempts are counted when a build is assigned, and at no other time. -/
theorem attempt_eq (h : Change maxRetries k b b') :
    b'.attempt = if k = .assignment then b.attempt + 1 else b.attempt := by
  cases h with
  | advanced amount _ =>
    unfold advance
    split <;> rfl
  | _ => rfl

theorem holdsWorker_of_loss (h : Change maxRetries .loss b b') : b.status.holdsWorker = true := by
  cases h with
  | requeued held _ => exact held
  | exhausted _ held _ => exact held

theorem free_of_loss (h : Change maxRetries .loss b b') : b'.status.holdsWorker = false := by
  cases h with
  | requeued => rfl
  | exhausted => rfl

end Change

end Build

/-! ## All records -/

namespace Ledger

/-- Records of builds that were given ids come from their former records, as these were or with a
change of this kind. A record that is gone was, in the end, that of a build that had ended. -/
structure Changes (given : List BuildId) (R : Build → Build → Prop) (l l' : Ledger) : Prop where
  former : ∀ id ∈ given, ∀ b', l'.find? id = some b' → ∃ b, l.find? id = some b ∧ (b' = b ∨ R b b')
  dropped : ∀ id b, l.find? id = some b → l'.find? id = none →
    ∃ b', (b' = b ∨ R b b') ∧ b'.isTerminal = true

variable {given : List BuildId} {R : Build → Build → Prop} {l l' : Ledger} {b c : Build}
  {id : BuildId} {w : WorkerId} {now : Instant}

namespace Changes

theorem of_find?_eq (heq : ∀ id, l'.find? id = l.find? id) : Changes given R l l' where
  former id _ b' hb' := by
    rw [heq] at hb'
    exact ⟨b', hb', .inl rfl⟩
  dropped id b hb hnone := by
    rw [heq, hb] at hnone
    cases hnone

theorem refl (given : List BuildId) (R : Build → Build → Prop) (l : Ledger) :
    Changes given R l l :=
  of_find?_eq fun _ => rfl

theorem mono {R' : Build → Build → Prop} (h : Changes given R l l')
    (hR : ∀ b b', R b b' → R' b b') : Changes given R' l l' where
  former id hid b' hb' := by
    obtain ⟨b, hb, heq | hchange⟩ := h.former id hid b' hb'
    · exact ⟨b, hb, .inl heq⟩
    · exact ⟨b, hb, .inr (hR b b' hchange)⟩
  dropped id b hb hnone := by
    obtain ⟨b', heq | hchange, hend⟩ := h.dropped id b hb hnone
    · exact ⟨b', .inl heq, hend⟩
    · exact ⟨b', .inr (hR b b' hchange), hend⟩

theorem put (hb : l.find? c.id = some b) (hR : R b c) : Changes given R l (l.put c) where
  former id _ x hx := by
    rw [find?_put] at hx
    split at hx
    · rename_i hid
      cases hx
      exact ⟨b, hid ▸ hb, .inr hR⟩
    · exact ⟨x, hx, .inl rfl⟩
  dropped id x hx hnone := by
    rw [find?_put] at hnone
    split at hnone
    · cases hnone
    · rw [hx] at hnone
      cases hnone

theorem evict (h : Records given l) : Changes given R l l.evict where
  former id _ x hx := by
    rw [find?_evict] at hx
    split at hx
    · cases hx
    · exact ⟨x, hx, .inl rfl⟩
  dropped id x hx hnone := by
    rw [find?_evict] at hnone
    split at hnone
    · rename_i hout
      cases hend : x.isTerminal with
      | true => exact ⟨x, .inl rfl, hend⟩
      | false => exact absurd hout (h.not_mem_surplus hx hend)
    · rw [hx] at hnone
      cases hnone

theorem archive (h : Records given l) (hb : l.find? c.id = some b) (hR : R b c)
    (hend : c.isTerminal = true) : Changes given R l (l.archive c) := by
  have hput : Changes given R l (l.put c) := put hb hR
  constructor
  case former =>
    intro id hid x hx
    rw [find?_archive] at hx
    split at hx
    · cases hx
    · exact hput.former id hid x hx
  case dropped =>
    intro id x hx hnone
    rw [find?_archive] at hnone
    split at hnone
    · rename_i hout
      -- What is dropped was in the history before, or is the build that enters it now.
      rcases List.mem_append.1 (List.mem_of_mem_take hout) with hold | hnew
      · obtain ⟨y, hy, hended⟩ := (h.ended id).1 hold
        rw [hx] at hy
        cases hy
        exact ⟨x, .inl rfl, hended⟩
      · obtain rfl := List.mem_singleton.1 hnew
        rw [hb] at hx
        cases hx
        exact ⟨c, .inr hR, hend⟩
    · exact hput.dropped id x hx hnone

/-- A build that lost its worker has none to lose again, so two rounds of losses are one. -/
theorem trans_loss {maxRetries : Nat} {l'' : Ledger} (hrecords : Records given l)
    (h : Changes given (Build.Change maxRetries .loss) l l')
    (h' : Changes given (Build.Change maxRetries .loss) l' l'') :
    Changes given (Build.Change maxRetries .loss) l l'' := by
  have htwice : ∀ b b' b'', b' = b ∨ Build.Change maxRetries .loss b b' →
      b'' = b' ∨ Build.Change maxRetries .loss b' b'' →
      b'' = b ∨ Build.Change maxRetries .loss b b'' := by
    intro b b' b'' hfirst hsecond
    rcases hfirst with rfl | hearlier
    · exact hsecond
    · rcases hsecond with rfl | hlater
      · exact .inr hearlier
      · have hheld := hlater.holdsWorker_of_loss
        rw [hearlier.free_of_loss] at hheld
        cases hheld
  constructor
  case former =>
    intro id hid b'' hb''
    obtain ⟨b', hb', hsecond⟩ := h'.former id hid b'' hb''
    obtain ⟨b, hb, hfirst⟩ := h.former id hid b' hb'
    exact ⟨b, hb, htwice b b' b'' hfirst hsecond⟩
  case dropped =>
    intro id b hb hnone
    cases hb' : l'.find? id with
    | none => exact h.dropped id b hb hb'
    | some b' =>
      obtain ⟨x, hx, hfirst⟩ := h.former id (hrecords.numbered id b hb).mem b' hb'
      rw [hb] at hx
      cases hx
      obtain ⟨b'', hsecond, hend⟩ := h'.dropped id b' hb' hnone
      exact ⟨b'', htwice b b' b'' hfirst hsecond, hend⟩

end Changes

/-! ## Every operation -/

/-- A change of just this build. -/
def Only (id : BuildId) (maxRetries : Nat) (k : Cause) (b b' : Build) : Prop :=
  b.id = id ∧ b.Change maxRetries k b'

theorem changes_submit {r : Request} (hnew : id ∉ given) (hnone : l.find? id = none)
    (hs : l.submit r id now = .ok (b, l')) : Changes given R l l' := by
  obtain ⟨-, rfl, rfl⟩ := submit_eq_ok hnone hs
  have hfind : ∀ x, x ≠ id →
      (l.put (.ofRequest r id l.nextSequence now)).find? x = l.find? x := fun x hx =>
    find?_put_of_ne l (.ofRequest r id l.nextSequence now) hx
  constructor
  case former =>
    intro x hx b' hb'
    change (l.put (.ofRequest r id l.nextSequence now)).find? x = some b' at hb'
    rw [hfind x fun heq => hnew (heq ▸ hx)] at hb'
    exact ⟨b', hb', .inl rfl⟩
  case dropped =>
    intro x b hb hgone
    change (l.put (.ofRequest r id l.nextSequence now)).find? x = none at hgone
    have hne : x ≠ id := by
      rintro rfl
      rw [hnone] at hb
      cases hb
    rw [hfind x hne, hb] at hgone
    cases hgone

theorem changes_acknowledge? {attempt : Nat} (hs : l.acknowledge? id w attempt = some l') :
    Changes given (Only id l.maxRetries .acknowledgement) l l' := by
  obtain ⟨b, hb, ha, rfl⟩ := acknowledge?_eq_some hs
  obtain rfl := id_of_find? hb
  exact .put (c := b.start) hb ⟨rfl, .started (Build.awaits_iff.1 ha).1⟩

theorem changes_rollback? {attempt : Nat} (hs : l.rollback? id w attempt = some l') :
    Changes given (Only id l.maxRetries .rollback) l l' := by
  obtain ⟨b, hb, ha, rfl⟩ := rollback?_eq_some hs
  obtain rfl := id_of_find? hb
  have hput : Changes given (Only b.id l.maxRetries .rollback) l (l.put b.requeue) :=
    .put (c := b.requeue) hb ⟨rfl, .rolledBack (Build.awaits_iff.1 ha).1⟩
  exact ⟨hput.former, hput.dropped⟩

theorem changes_progress {amount : Float} (hs : l.progress id w amount = .ok (some l')) :
    Changes given (Only id l.maxRetries .progress) l l' := by
  obtain ⟨b, hb, hheld, rfl⟩ := progress_eq_ok hs
  obtain rfl := id_of_find? hb
  have hchange : b.Change l.maxRetries .progress (b.advance amount) :=
    .advanced amount (Build.heldBy_iff.1 hheld).1
  exact .put (b := b) (by rw [hchange.id_eq, hb]) ⟨rfl, hchange⟩

theorem changes_complete {r : Report} (h : Records given l)
    (hs : l.complete id r now = .ok (some l')) :
    Changes given (Only id l.maxRetries .report) l l' := by
  obtain ⟨b, hb, hheld, rfl⟩ := complete_eq_ok hs
  obtain rfl := id_of_find? hb
  exact .archive (c := b.finish _ _ now) h hb
    ⟨rfl, .reported r now (Build.heldBy_iff.1 hheld).1⟩ (isTerminal_verdict r)

theorem changes_lose (h : Records given l) (id : BuildId) (w : WorkerId) (now : Instant) :
    Changes given (Build.Change l.maxRetries .loss) l (l.lose id w now).2 := by
  rcases lose_cases l id w now with ⟨-, heq⟩ | ⟨b, hb, hheld, ⟨hspent, heq⟩ | ⟨hleft, heq⟩⟩
  · rw [heq]
    exact .refl given _ l
  · obtain rfl := id_of_find? hb
    rw [heq]
    exact .archive (b := b) h hb
      (.exhausted now (Build.heldBy_iff.1 hheld).1 (Nat.le_of_lt_succ hspent)) rfl
  · obtain rfl := id_of_find? hb
    have hput : Changes given (Build.Change l.maxRetries .loss) l
        (l.put { b with retries := b.retries + 1 }.requeue) :=
      .put (b := b) hb (.requeued (Build.heldBy_iff.1 hheld).1 hleft)
    rw [heq]
    exact ⟨hput.former, hput.dropped⟩

theorem changes_cancel {answer : Cancellation} (h : Records given l)
    (hs : l.cancel id now = .ok (answer, l')) :
    Changes given (Only id l.maxRetries .cancellation) l l' := by
  obtain ⟨b, hb, ⟨-, -, rfl⟩ | ⟨hopen, -, rfl⟩⟩ := cancel_eq_ok hs
  · exact .refl given _ l'
  · obtain rfl := id_of_find? hb
    exact .archive (c := b.finish _ _ now) h hb ⟨rfl, .cancelled now hopen⟩ rfl

theorem changes_satisfy? {artifacts : List String} (h : Records given l)
    (hs : l.satisfy? id artifacts now = some l') :
    Changes given (Only id l.maxRetries .cacheHit) l l' := by
  obtain ⟨b, hb, hq, rfl⟩ := satisfy?_eq_some hs
  obtain rfl := id_of_find? hb
  have harchive : Changes given (Only b.id l.maxRetries .cacheHit)
      { l with counters := { l.counters with cacheHits := l.counters.cacheHits + 1 } } _ :=
    .archive (c := b.finish _ _ now) (h.withQueue l.backlog _) hb
      ⟨rfl, .satisfied artifacts now hq⟩ rfl
  exact ⟨harchive.former, harchive.dropped⟩

/-! ## Losses and restarts -/

theorem changes_loseAll (h : Sound given l) (now : Instant) (pairs : List (BuildId × WorkerId)) :
    Changes given (Build.Change l.maxRetries .loss) l (loseAll now pairs l).2 := by
  induction pairs generalizing l with
  | nil => exact .refl given _ l
  | cons pair rest ih =>
    have hfirst := changes_lose h.records pair.1 pair.2 now
    have hrest := ih (sound_lose h pair.1 pair.2 now).1
    rw [(limits_lose l _ _ now).1] at hrest
    exact .trans_loss h.records hfirst hrest

theorem changes_ofImage (h : Sound given l) (maxRetries historyLimit : Nat) (now : Instant) :
    Changes given (Build.Change maxRetries .loss) l
      (ofImage l.toImage maxRetries historyLimit now).2 := by
  have hopen : Changes given (Build.Change maxRetries .loss) l
      (reopen l.toImage maxRetries historyLimit) :=
    .of_find?_eq (find?_reopen l maxRetries historyLimit)
  have hsound := sound_reopen h maxRetries historyLimit
  have hlost := changes_loseAll hsound now (reopen l.toImage maxRetries historyLimit).inFlight
  rw [(limits_reopen l.toImage maxRetries historyLimit).1] at hlost
  have hrecords := (sound_loseAll now (reopen l.toImage maxRetries historyLimit).inFlight
    hsound).1.records
  exact .trans_loss h.records (.trans_loss h.records hopen hlost) (.evict hrecords)

end Ledger

end BuildPool
