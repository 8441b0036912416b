import BuildPool.Proofs.Ledger.Restart

/-!
# Limits of a ledger

How often a build may lose its worker, and how many builds that ended are kept. Both are set when a
ledger is made, and no operation changes them.
-/

namespace BuildPool

open BuildPool.Time

namespace Ledger

variable {l : Ledger} {maxRetries historyLimit : Nat}

theorem limits_lose (l : Ledger) (id : BuildId) (w : WorkerId) (now : Instant) :
    (l.lose id w now).2.maxRetries = l.maxRetries ∧
      (l.lose id w now).2.historyLimit = l.historyLimit := by
  rcases lose_cases l id w now with ⟨-, heq⟩ | ⟨b, -, -, ⟨-, heq⟩ | ⟨-, heq⟩⟩
  · rw [heq]
    exact ⟨rfl, rfl⟩
  · rw [heq]
    exact ⟨rfl, rfl⟩
  · rw [heq]
    exact ⟨rfl, rfl⟩

theorem limits_loseAll (now : Instant) (pairs : List (BuildId × WorkerId)) (l : Ledger) :
    (loseAll now pairs l).2.maxRetries = l.maxRetries ∧
      (loseAll now pairs l).2.historyLimit = l.historyLimit := by
  induction pairs generalizing l with
  | nil => exact ⟨rfl, rfl⟩
  | cons pair rest ih =>
    obtain ⟨hretries, hlimit⟩ := limits_lose l pair.1 pair.2 now
    obtain ⟨hretries', hlimit'⟩ := ih (l.lose pair.1 pair.2 now).2
    exact ⟨hretries'.trans hretries, hlimit'.trans hlimit⟩

theorem limits_reopen (image : Image) (maxRetries historyLimit : Nat) :
    (reopen image maxRetries historyLimit).maxRetries = maxRetries ∧
      (reopen image maxRetries historyLimit).historyLimit = historyLimit := by
  unfold reopen
  rw [foldl_enter]
  exact ⟨rfl, rfl⟩

/-- The limits of a ledger, and a history that keeps to them. -/
structure Within (maxRetries historyLimit : Nat) (l : Ledger) : Prop where
  retries : l.maxRetries = maxRetries
  limit : l.historyLimit = historyLimit
  fits : l.history.length ≤ historyLimit

theorem Within.empty (maxRetries historyLimit : Nat) :
    Within maxRetries historyLimit (Ledger.empty maxRetries historyLimit) :=
  ⟨rfl, rfl, Nat.zero_le _⟩

theorem within_evict (hretries : l.maxRetries = maxRetries)
    (hlimit : l.historyLimit = historyLimit) : Within maxRetries historyLimit l.evict where
  retries := hretries
  limit := hlimit
  fits := by
    rw [history_evict, List.length_drop]
    omega

theorem Within.archive (h : Within maxRetries historyLimit l) (b : Build) :
    Within maxRetries historyLimit (l.archive b) :=
  within_evict h.retries h.limit

theorem Within.lose (h : Within maxRetries historyLimit l) (id : BuildId) (w : WorkerId)
    (now : Instant) : Within maxRetries historyLimit (l.lose id w now).2 := by
  rcases lose_cases l id w now with ⟨-, heq⟩ | ⟨b, -, -, ⟨-, heq⟩ | ⟨-, heq⟩⟩
  · rw [heq]
    exact h
  · rw [heq]
    exact h.archive _
  · rw [heq]
    exact ⟨h.retries, h.limit, h.fits⟩

theorem Within.loseAll (h : Within maxRetries historyLimit l) (now : Instant)
    (pairs : List (BuildId × WorkerId)) :
    Within maxRetries historyLimit (loseAll now pairs l).2 := by
  induction pairs generalizing l with
  | nil => exact h
  | cons pair rest ih => exact ih (h.lose pair.1 pair.2 now)

theorem evict_eq_self (h : l.history.length ≤ l.historyLimit) : l.evict = l := by
  have hnone : l.history.length - l.historyLimit = 0 := by omega
  unfold evict
  simp only [hnone, List.drop_zero, List.take_zero, List.foldl_nil]

theorem within_ofImage (image : Image) (maxRetries historyLimit : Nat) (now : Instant) :
    Within maxRetries historyLimit (ofImage image maxRetries historyLimit now).2 := by
  obtain ⟨hretries, hlimit⟩ := limits_reopen image maxRetries historyLimit
  obtain ⟨hretries', hlimit'⟩ := limits_loseAll now
    (reopen image maxRetries historyLimit).inFlight (reopen image maxRetries historyLimit)
  exact within_evict (hretries'.trans hretries) (hlimit'.trans hlimit)

end Ledger

end BuildPool
