import BuildPool.Proofs.Ledger.View

/-!
# Ledgers from any image

An image need not come from a ledger. Whatever it says, a build that it has with a worker loses the
worker when the ledger is rebuilt. A build that it has in flight without naming a worker is left as
it is, and nothing but a cancellation ever moves it.
-/

namespace BuildPool

open BuildPool.Time

/-- The record under an id. Of several the last one counts. -/
def Image.recorded (image : Image) (id : BuildId) : Option Build :=
  image.builds.reverse.find? (·.id == id)

namespace Ledger

variable {l : Ledger} {image : Image} {maxRetries historyLimit : Nat} {b b' : Build} {id : BuildId}
  {now : Instant}

/-! ## Before workers are given up -/

theorem find?_reopen_image (image : Image) (maxRetries historyLimit : Nat) (id : BuildId) :
    (reopen image maxRetries historyLimit).find? id = image.recorded id := by
  have hkey : (fun b : Build => b.key == id.text) = fun b : Build => b.id == id := by
    funext b
    rw [Bool.eq_iff_iff, beq_iff_eq, beq_iff_eq]
    exact BuildId.text_inj
  unfold reopen find? Image.recorded
  simp only [builds_foldl_enter]
  rw [Catalog.find?_foldl_insert, hkey]
  exact Option.or_none

theorem listsEnds_reopen (image : Image) (maxRetries historyLimit : Nat) :
    (reopen image maxRetries historyLimit).ListsEnds := by
  intro id b hid hb
  have hany := (List.mem_filter.1 hid).2
  change (((reopen image maxRetries historyLimit).find? id).any Build.isTerminal) = true at hany
  rw [hb] at hany
  exact hany

/-! ## Giving up workers -/

theorem find?_lose_cases (id : BuildId) (w : WorkerId) (now : Instant) {x : BuildId}
    (hb' : (l.lose id w now).2.find? x = some b') :
    l.find? x = some b' ∨ (b'.worker = none ∧ b'.status.holdsWorker = false) := by
  rcases lose_cases l id w now with ⟨-, heq⟩ | ⟨b, hb, hheld, ⟨-, heq⟩ | ⟨-, heq⟩⟩
  · rw [heq] at hb'
    exact .inl hb'
  · rw [heq] at hb'
    change (l.archive _).find? x = some b' at hb'
    rcases find?_archive_cases hb' with ⟨-, rfl⟩ | ⟨-, hbefore⟩
    · exact .inr ⟨rfl, rfl⟩
    · exact .inl hbefore
  · rw [heq] at hb'
    change (l.put { b with retries := b.retries + 1 }.requeue).find? x = some b' at hb'
    rw [find?_put] at hb'
    split at hb'
    · cases hb'
      exact .inr ⟨rfl, rfl⟩
    · exact .inl hb'

/-- Records of builds that have something to do with a worker are as they were. -/
theorem find?_loseAll_cases (now : Instant) (pairs : List (BuildId × WorkerId))
    (hb' : (loseAll now pairs l).2.find? id = some b') :
    l.find? id = some b' ∨ (b'.worker = none ∧ b'.status.holdsWorker = false) := by
  induction pairs generalizing l with
  | nil => exact .inl hb'
  | cons pair rest ih =>
    rcases ih hb' with hbefore | hfree
    · exact find?_lose_cases pair.1 pair.2 now hbefore
    · exact .inr hfree

theorem find?_ofImage_cases
    (hb' : (ofImage image maxRetries historyLimit now).2.find? id = some b') :
    image.recorded id = some b' ∨ (b'.worker = none ∧ b'.status.holdsWorker = false) := by
  change (loseAll now (reopen image maxRetries historyLimit).inFlight
    (reopen image maxRetries historyLimit)).2.evict.find? id = some b' at hb'
  rw [find?_evict] at hb'
  split at hb'
  · cases hb'
  · rw [← find?_reopen_image image maxRetries historyLimit]
    exact find?_loseAll_cases now _ hb'

/-- A build that the image has with a worker is as the loss of the worker left it. -/
theorem remembers_ofImage_of_heldBy {w : WorkerId} (maxRetries : Nat) (now : Instant)
    (hlimit : 1 ≤ historyLimit) (hb : image.recorded id = some b)
    (hheld : b.heldBy w = true) :
    (ofImage image maxRetries historyLimit now).2.Remembers (b.lost maxRetries now) := by
  have hlists := listsEnds_reopen image maxRetries historyLimit
  obtain ⟨hretries, hkept⟩ := limits_reopen image maxRetries historyLimit
  rw [← find?_reopen_image image maxRetries historyLimit] at hb
  have hmem : (id, w) ∈ (reopen image maxRetries historyLimit).inFlight :=
    mem_inFlight.2 ⟨b, hb, hheld⟩
  have hlost := lost_remembered now hlists (by omega) (holding_inFlight _) hmem hb
  rw [hretries] at hlost
  exact remembers_evict (hlists.loseAll now _) hlost

/-- An open build without a worker is none that is taken from a worker. -/
theorem find?_ofImage_of_open (hb : image.recorded id = some b) (hopen : b.isTerminal = false)
    (hnone : b.worker = none) :
    (ofImage image maxRetries historyLimit now).2.find? id = some b := by
  have hlists := listsEnds_reopen image maxRetries historyLimit
  rw [← find?_reopen_image image maxRetries historyLimit] at hb
  obtain rfl := id_of_find? hb
  have hstays : (loseAll now (reopen image maxRetries historyLimit).inFlight
      (reopen image maxRetries historyLimit)).2.Remembers b := by
    apply remembers_loseAll now hlists (.inl hb)
    intro y hy heq
    obtain ⟨x, hx, hheld⟩ := mem_inFlight.1 hy
    rw [← heq, hb] at hx
    cases hx
    have hworker := (Build.heldBy_iff.1 hheld).2
    rw [hnone] at hworker
    cases hworker
  exact (remembers_evict (hlists.loseAll now _) hstays).find?_eq hopen

/-- What is in flight after all was recorded so, without a worker. -/
theorem inFlight_ofImage (hlimit : 1 ≤ historyLimit) :
    ((ofImage image maxRetries historyLimit now).2.find? id = some b ∧
        b.status.holdsWorker = true) ↔
      image.recorded id = some b ∧ b.status.holdsWorker = true ∧ b.worker = none := by
  constructor
  · rintro ⟨hb, hholds⟩
    rcases find?_ofImage_cases hb with hrecorded | ⟨-, hfree⟩
    · refine ⟨hrecorded, hholds, ?_⟩
      cases hworker : b.worker with
      | none => rfl
      | some w =>
        have hlost := remembers_ofImage_of_heldBy maxRetries now hlimit
          hrecorded (Build.heldBy_iff.2 ⟨hholds, hworker⟩)
        unfold Remembers at hlost
        rw [Build.lost_id, id_of_find? hb, hb] at hlost
        rcases hlost with hlost | ⟨hgone, -⟩
        · rw [Option.some.inj hlost, Build.lost_holdsWorker] at hholds
          cases hholds
        · cases hgone
    · rw [hfree] at hholds
      cases hholds
  · rintro ⟨hrecorded, hholds, hnone⟩
    exact ⟨find?_ofImage_of_open hrecorded (Build.isTerminal_eq_false_of_holdsWorker hholds) hnone,
      hholds⟩

/-! ## Builds in flight without a worker -/

/-- No worker and no pass can do anything to the build. -/
structure Stranded (l : Ledger) (id : BuildId) : Prop where
  waiting : l.isQueued id = false
  assign : ∀ w now, ∃ e, l.assign id w now = .error e
  acknowledge : ∀ w attempt, l.acknowledge? id w attempt = none
  rollback : ∀ w attempt, l.rollback? id w attempt = none
  progress : ∀ w amount, l.progress id w amount = .ok none
  complete : ∀ r now, l.complete id r now = .ok none
  lose : ∀ w now, l.lose id w now = (.notHeld, l)
  satisfy : ∀ artifacts now, l.satisfy? id artifacts now = none

theorem stranded_of_find? (hb : l.find? id = some b) (hholds : b.status.holdsWorker = true)
    (hnone : b.worker = none) : l.Stranded id := by
  have hfree : ∀ w, b.heldBy w = false := by
    intro w
    simp [Build.heldBy, hnone]
  have hqueued : b.status ≠ .queued := by
    intro hq
    rw [hq] at hholds
    cases hholds
  have hawaits : ∀ w attempt, b.awaits w attempt = false := by
    intro w attempt
    simp [Build.awaits, hfree]
  have hrequire : l.require id = .ok b := by
    rw [require, hb]
  constructor
  case waiting => simp [isQueued, hb, hqueued]
  case assign =>
    intro w now
    refine ⟨.invalidTransition b.status .assigned, ?_⟩
    rw [Ledger.assign, hrequire]
    exact if_neg hqueued
  case acknowledge =>
    intro w attempt
    simp [acknowledge?, hb, hawaits]
  case rollback =>
    intro w attempt
    simp [rollback?, hb, hawaits]
  case progress =>
    intro w amount
    rw [Ledger.progress, hrequire]
    exact if_neg (by simp [hfree])
  case complete =>
    intro r now
    rw [Ledger.complete, hrequire]
    exact if_neg (by simp [hfree])
  case lose =>
    intro w now
    simp [Ledger.lose, hb, hfree]
  case satisfy =>
    intro artifacts now
    simp [satisfy?, hb, hqueued]

end Ledger

end BuildPool
