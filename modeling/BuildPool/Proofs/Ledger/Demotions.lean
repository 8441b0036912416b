import BuildPool.Proofs.Ledger.Recent
import BuildPool.Proofs.Ledger.View

/-!
# What becomes of builds that lose their workers

Workers are taken from their builds one after the other. What came of each build can be told from
the ledger before: it waits again or it failed. The builds that failed come into the history, and
all others are as they were, but for those that the history has no room for any more.
-/

namespace BuildPool

open BuildPool.Time Ledger

/-! ## Losses by what came of them -/

section
variable {losses : List (BuildId × Loss)} {id : BuildId}

theorem mem_requeuedIn :
    id ∈ requeuedIn losses ↔ ∃ loss, (id, loss) ∈ losses ∧ loss.isRequeued = true := by
  simp [requeuedIn]

theorem mem_failedIn : id ∈ failedIn losses ↔ (id, .failed) ∈ losses := by
  simp [failedIn]

/-- If every build was with the worker that lost it, each is in one of the two lists. -/
theorem perm_requeuedIn_failedIn (h : ∀ x ∈ losses, x.2 ≠ .notHeld) :
    (requeuedIn losses ++ failedIn losses).Perm (losses.map Prod.fst) := by
  have hrest : losses.filter (fun x => x.2 == .failed) =
      losses.filter fun x => !x.2.isRequeued := by
    refine List.filter_congr fun x hx => ?_
    have hx := h x hx
    cases hloss : x.2 with
    | requeued n => rfl
    | failed => rfl
    | notHeld => exact absurd hloss hx
  rw [requeuedIn, failedIn, hrest, ← List.map_append]
  exact (List.filter_append_perm _ losses).map _

end

/-! ## Losses of a ledger -/

namespace Ledger

variable {given : List BuildId} {l : Ledger} {b : Build} {id : BuildId} {w : WorkerId}
  {now : Instant} {pairs : List (BuildId × WorkerId)}

/-- What came of each build can be told from the ledger before. -/
theorem losses_loseAll (now : Instant) (h : l.ListsEnds) (hholding : l.Holding pairs) :
    (loseAll now pairs l).1 = pairs.map fun x => (x.1, l.lossOf x.1) := by
  induction pairs generalizing l with
  | nil => rfl
  | cons pair rest ih =>
    obtain ⟨first, v⟩ := pair
    have hfirst := loss_lose now (hholding.held (first, v) List.mem_cons_self)
    rw [loseAll_cons, ih (h.lose first v now) (hholding.tail now h), List.map_cons, hfirst]
    refine congrArg _ (List.map_congr_left fun x hx => ?_)
    rw [hholding.lossOf_tail now h hx]

theorem history_lose (hfits : l.history.length ≤ l.historyLimit) (id : BuildId) (w : WorkerId)
    (now : Instant) :
    (l.lose id w now).2.history =
      (l.history ++ failedIn [(id, (l.lose id w now).1)]).rtake l.historyLimit := by
  have hsame : (l.history ++ []).rtake l.historyLimit = l.history := by
    rw [List.append_nil, rtake_of_length_le hfits]
  rcases lose_cases l id w now with ⟨-, heq⟩ | ⟨b, hb, -, ⟨-, heq⟩ | ⟨-, heq⟩⟩
  · rw [heq]
    exact hsame.symm
  · rw [heq, ← id_of_find? hb]
    rfl
  · rw [heq]
    exact hsame.symm

/-- The builds that failed come into the history, in the order in which they did. -/
theorem history_loseAll {maxRetries historyLimit : Nat} (h : Within maxRetries historyLimit l)
    (now : Instant) (pairs : List (BuildId × WorkerId)) :
    (loseAll now pairs l).2.history =
      (l.history ++ failedIn (loseAll now pairs l).1).rtake historyLimit := by
  induction pairs generalizing l with
  | nil =>
    change l.history = (l.history ++ []).rtake historyLimit
    rw [List.append_nil, rtake_of_length_le h.fits]
  | cons pair rest ih =>
    obtain ⟨first, v⟩ := pair
    have hfirst := history_lose (h.limit ▸ h.fits) first v now
    rw [h.limit] at hfirst
    have hsplit : failedIn (loseAll now ((first, v) :: rest) l).1 =
        failedIn [(first, (l.lose first v now).1)] ++
          failedIn (loseAll now rest (l.lose first v now).2).1 := by
      rw [← failedIn_append]
      rfl
    rw [hsplit, ← List.append_assoc, ← rtake_append_rtake, ← hfirst]
    exact ih (h.lose first v now)

/-- What a ledger shows of a record that it has, unless the build ended and was dropped. -/
def shown (l : Ledger) (b : Build) : Option Build :=
  if b.isTerminal = true ∧ b.id ∉ l.history then none else some b

theorem find?_eq_shown (h : Records given l) (hb : l.Remembers b) : l.find? b.id = l.shown b := by
  unfold shown
  rcases hb with hstays | ⟨hgone, hend⟩
  · rw [hstays, if_neg fun hc => hc.2 ((h.ended b.id).2 ⟨b, hstays, hc.1⟩)]
  · have hnot : b.id ∉ l.history := fun hmem => by
      obtain ⟨x, hx, -⟩ := (h.ended b.id).1 hmem
      rw [hgone] at hx
      cases hx
    rw [hgone, if_pos ⟨hend, hnot⟩]

theorem loss_ne_notHeld (now : Instant) (h : l.ListsEnds) (hholding : l.Holding pairs) :
    ∀ x ∈ (loseAll now pairs l).1, x.2 ≠ .notHeld := by
  intro x hx
  rw [losses_loseAll now h hholding] at hx
  obtain ⟨y, hy, rfl⟩ := List.mem_map.1 hx
  obtain ⟨b, hb, -⟩ := hholding.held y hy
  dsimp only
  rw [lossOf_of_find? hb]
  split <;> exact nofun

theorem perm_losses (now : Instant) (h : l.ListsEnds) (hholding : l.Holding pairs) :
    (requeuedIn (loseAll now pairs l).1 ++ failedIn (loseAll now pairs l).1).Perm
      (pairs.map Prod.fst) := by
  have hfirst : (loseAll now pairs l).1.map Prod.fst = pairs.map Prod.fst := by
    rw [losses_loseAll now h hholding, List.map_map]
    rfl
  rw [← hfirst]
  exact perm_requeuedIn_failedIn (loss_ne_notHeld now h hholding)

theorem mem_requeued_iff (h : l.ListsEnds) (hholding : l.Holding pairs) :
    id ∈ requeuedIn (loseAll now pairs l).1 ↔
      ∃ w b, (id, w) ∈ pairs ∧ l.find? id = some b ∧ b.retries + 1 ≤ l.maxRetries := by
  rw [mem_requeuedIn, losses_loseAll now h hholding]
  constructor
  · rintro ⟨loss, hmem, hrequeued⟩
    obtain ⟨⟨x, w⟩, hx, heq⟩ := List.mem_map.1 hmem
    obtain ⟨rfl, rfl⟩ := Prod.mk.inj heq
    obtain ⟨b, hb, -⟩ := hholding.held (x, w) hx
    rw [lossOf_of_find? hb] at hrequeued
    refine ⟨w, b, hx, hb, ?_⟩
    split at hrequeued
    · assumption
    · cases hrequeued
  · rintro ⟨w, b, hx, hb, hleft⟩
    refine ⟨l.lossOf id, List.mem_map.2 ⟨(id, w), hx, rfl⟩, ?_⟩
    rw [lossOf_of_find? hb, if_pos (by omega)]
    rfl

theorem mem_failed_iff (h : l.ListsEnds) (hholding : l.Holding pairs) :
    id ∈ failedIn (loseAll now pairs l).1 ↔
      ∃ w b, (id, w) ∈ pairs ∧ l.find? id = some b ∧ l.maxRetries < b.retries + 1 := by
  rw [mem_failedIn, losses_loseAll now h hholding]
  constructor
  · intro hmem
    obtain ⟨⟨x, w⟩, hx, heq⟩ := List.mem_map.1 hmem
    obtain ⟨rfl, hfailed⟩ := Prod.mk.inj heq
    obtain ⟨b, hb, -⟩ := hholding.held (x, w) hx
    rw [lossOf_of_find? hb] at hfailed
    refine ⟨w, b, hx, hb, ?_⟩
    split at hfailed
    · cases hfailed
    · omega
  · rintro ⟨w, b, hx, hb, hspent⟩
    refine List.mem_map.2 ⟨(id, w), hx, ?_⟩
    rw [lossOf_of_find? hb, if_neg (by omega)]

/-- A build that was taken is as its loss left it. -/
theorem find?_loseAll_of_mem (now : Instant) (h : Sound given l) (hlimit : 1 ≤ l.historyLimit)
    (hholding : l.Holding pairs) (hmem : (id, w) ∈ pairs) (hb : l.find? id = some b) :
    (loseAll now pairs l).2.find? id =
      (loseAll now pairs l).2.shown (b.lost l.maxRetries now) := by
  have hlost := lost_remembered now h.records.listsEnds hlimit hholding hmem hb
  rw [← find?_eq_shown (sound_loseAll now pairs h).1.records hlost, b.lost_id, id_of_find? hb]

/-- All other builds are as they were. -/
theorem find?_loseAll_of_not_mem (now : Instant) (h : Sound given l)
    (hout : id ∉ pairs.map Prod.fst) :
    (loseAll now pairs l).2.find? id =
      if id ∈ l.history ∧ id ∉ (loseAll now pairs l).2.history then none else l.find? id := by
  have hafter := (sound_loseAll now pairs h).1.records
  cases hb : l.find? id with
  | none =>
    rw [ite_self]
    cases hb' : (loseAll now pairs l).2.find? id with
    | none => rfl
    | some b' =>
      have hgiven := (hafter.numbered id b' hb').mem
      obtain ⟨b, hsome, -⟩ := (changes_loseAll h now pairs).former id hgiven b' hb'
      rw [hb] at hsome
      cases hsome
  | some b =>
    obtain rfl := id_of_find? hb
    have hkept : (loseAll now pairs l).2.Remembers b :=
      remembers_loseAll now h.records.listsEnds (.inl hb) fun y hy heq =>
        hout (List.mem_map.2 ⟨y, hy, heq.symm⟩)
    rw [← hb]
    exact h.records.find?_eq_of_stays hafter (hkept.imp (·.trans hb.symm) fun hgone =>
      ⟨hgone.1, (h.records.ended b.id).2 ⟨b, hb, hgone.2⟩⟩)

end Ledger

end BuildPool
