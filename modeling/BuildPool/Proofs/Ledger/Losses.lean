import BuildPool.Proofs.Ledger.Limits

/-!
# Losses

In a scan or a restart builds lose their workers one after the other. No loss touches another build
that is open, so what becomes of each can be read off its record before the first of them.
-/

namespace BuildPool

open BuildPool.Time

/-! ## A build that loses its worker -/

/-- The record of a build after its worker was lost. -/
def Build.lost (b : Build) (maxRetries : Nat) (now : Instant) : Build :=
  if b.retries < maxRetries then { b with retries := b.retries + 1 }.requeue
  else { b with retries := maxRetries }.finish .failed (.failure retriesExhausted) now

theorem Build.lost_id (b : Build) (maxRetries : Nat) (now : Instant) :
    (b.lost maxRetries now).id = b.id := by
  unfold Build.lost
  split <;> rfl

theorem Build.lost_holdsWorker (b : Build) (maxRetries : Nat) (now : Instant) :
    (b.lost maxRetries now).status.holdsWorker = false := by
  unfold Build.lost
  split <;> rfl

/-! ## What came of losses -/

def Loss.isRequeued : Loss → Bool
  | .requeued _ => true
  | .failed | .notHeld => false

def requeuedIn (losses : List (BuildId × Loss)) : List BuildId :=
  (losses.filter fun x => x.2.isRequeued).map Prod.fst

def failedIn (losses : List (BuildId × Loss)) : List BuildId :=
  (losses.filter fun x => x.2 == .failed).map Prod.fst

theorem requeuedIn_append (losses more : List (BuildId × Loss)) :
    requeuedIn (losses ++ more) = requeuedIn losses ++ requeuedIn more := by
  unfold requeuedIn
  rw [List.filter_append, List.map_append]

theorem failedIn_append (losses more : List (BuildId × Loss)) :
    failedIn (losses ++ more) = failedIn losses ++ failedIn more := by
  unfold failedIn
  rw [List.filter_append, List.map_append]

namespace Ledger

variable {l : Ledger} {b x : Build} {id : BuildId} {w : WorkerId}
  {pairs rest : List (BuildId × WorkerId)}

/-! ## One loss -/

/-- What comes of the loss of the worker that has the build. -/
def lossOf (l : Ledger) (id : BuildId) : Loss :=
  match l.find? id with
  | some b => if b.retries < l.maxRetries then .requeued (b.retries + 1) else .failed
  | none => .notHeld

theorem lossOf_of_find? (hb : l.find? id = some b) : l.lossOf id =
    if b.retries < l.maxRetries then .requeued (b.retries + 1) else .failed := by
  unfold lossOf
  rw [hb]

theorem loss_lose (now : Instant) (hheld : l.HeldBy id w) : (l.lose id w now).1 = l.lossOf id := by
  obtain ⟨b, hb, hw⟩ := hheld
  rw [lossOf_of_find? hb]
  rcases lose_cases l id w now with ⟨hnot, -⟩ | ⟨x, hx, -, ⟨hspent, heq⟩ | ⟨hleft, heq⟩⟩
  · rw [hnot b hb] at hw
    cases hw
  · rw [hb] at hx
    cases hx
    rw [heq, if_neg (by omega)]
  · rw [hb] at hx
    cases hx
    rw [heq, if_pos (by omega)]

/-- The build is written anew; if it failed, it is the last in the history. -/
theorem find?_lose_self (now : Instant) (h : l.ListsEnds) (hlimit : 1 ≤ l.historyLimit)
    (hb : l.find? id = some b) (hheld : b.heldBy w = true) :
    (l.lose id w now).2.find? id = some (b.lost l.maxRetries now) := by
  obtain rfl := id_of_find? hb
  unfold Build.lost
  rcases lose_cases l b.id w now with ⟨hnot, -⟩ | ⟨x, hx, -, ⟨hspent, heq⟩ | ⟨hleft, heq⟩⟩
  · rw [hnot b hb] at hheld
    cases hheld
  · rw [hb] at hx
    cases hx
    have hopen := Build.isTerminal_eq_false_of_heldBy hheld
    rw [heq, if_neg (by omega)]
    exact find?_archive_self
      (c := { b with retries := l.maxRetries }.finish .failed (.failure retriesExhausted) now)
      h hb hopen hlimit
  · rw [hb] at hx
    cases hx
    rw [heq, if_pos (by omega)]
    exact find?_put_self l { b with retries := b.retries + 1 }.requeue

/-- The build is as it was, or it had ended and was dropped. -/
def Remembers (l : Ledger) (b : Build) : Prop :=
  l.find? b.id = some b ∨ (l.find? b.id = none ∧ b.isTerminal = true)

theorem remembers_evict (h : l.ListsEnds) (hb : l.Remembers b) : l.evict.Remembers b := by
  unfold Remembers
  rw [find?_evict]
  rcases hb with hstays | ⟨hgone, hend⟩
  · cases hend : b.isTerminal with
    | false =>
      rw [if_neg (h.not_mem_surplus hstays hend)]
      exact .inl hstays
    | true =>
      split
      · exact .inr ⟨rfl, rfl⟩
      · exact .inl hstays
  · rw [hgone, ite_self]
    exact .inr ⟨rfl, hend⟩

theorem remembers_put (hb : l.Remembers b) (hne : b.id ≠ x.id) : (l.put x).Remembers b := by
  unfold Remembers
  rw [find?_put_of_ne l x hne]
  exact hb

/-- Another build ended. -/
theorem remembers_archive {c : Build} (h : l.ListsEnds) (hend : c.isTerminal = true)
    (hb : l.Remembers b) (hne : b.id ≠ c.id) : (l.archive c).Remembers b :=
  remembers_evict (h.close hend _) (remembers_put (l := l) hb hne)

/-- The loss of another build leaves the build alone. -/
theorem remembers_lose (now : Instant) (h : l.ListsEnds) (hb : l.Remembers b) (hne : b.id ≠ id) :
    (l.lose id w now).2.Remembers b := by
  rcases lose_cases l id w now with ⟨-, heq⟩ | ⟨x, hx, hheld, ⟨-, heq⟩ | ⟨-, heq⟩⟩
  · rw [heq]
    exact hb
  · obtain rfl := id_of_find? hx
    rw [heq]
    exact remembers_archive h rfl hb hne
  · obtain rfl := id_of_find? hx
    rw [heq]
    exact remembers_put (x := { x with retries := x.retries + 1 }.requeue) hb hne

theorem ListsEnds.lose (h : l.ListsEnds) (id : BuildId) (w : WorkerId) (now : Instant) :
    (l.lose id w now).2.ListsEnds := by
  rcases lose_cases l id w now with ⟨-, heq⟩ | ⟨b, hb, hheld, ⟨-, heq⟩ | ⟨-, heq⟩⟩
  · rw [heq]
    exact h
  · rw [heq]
    exact h.archive rfl
  · obtain rfl := id_of_find? hb
    have hput : (l.put { b with retries := b.retries + 1 }.requeue).ListsEnds :=
      h.put (b := b) hb (Build.isTerminal_eq_false_of_heldBy hheld)
    rw [heq]
    exact hput

theorem ListsEnds.loseAll (h : l.ListsEnds) (now : Instant)
    (pairs : List (BuildId × WorkerId)) : (loseAll now pairs l).2.ListsEnds := by
  induction pairs generalizing l with
  | nil => exact h
  | cons pair rest ih => exact ih (h.lose pair.1 pair.2 now)

theorem Remembers.find?_eq (hb : l.Remembers b) (hopen : b.isTerminal = false) :
    l.find? b.id = some b := by
  rcases hb with hstays | ⟨-, hend⟩
  · exact hstays
  · rw [hopen] at hend
    cases hend

theorem retried_lose (now : Instant) (hheld : l.HeldBy id w) :
    (l.lose id w now).2.counters.retried =
      l.counters.retried + if (l.lossOf id).isRequeued then 1 else 0 := by
  rw [← loss_lose now hheld]
  obtain ⟨b, hb, hw⟩ := hheld
  rcases lose_cases l id w now with ⟨hnot, -⟩ | ⟨_, -, -, ⟨-, heq⟩ | ⟨-, heq⟩⟩
  · rw [hnot b hb] at hw
    cases hw
  · rw [heq]
    rfl
  · rw [heq]
    rfl

/-! ## One after the other -/

/-- Builds with the workers that have them, each build once. -/
structure Holding (l : Ledger) (pairs : List (BuildId × WorkerId)) : Prop where
  once : (pairs.map Prod.fst).Nodup
  held : ∀ x ∈ pairs, l.HeldBy x.1 x.2

/-- The ledger after each of the losses. -/
def losing (now : Instant) : List (BuildId × WorkerId) → Ledger → List Ledger
  | [], _ => []
  | (id, w) :: rest, l => (l.lose id w now).2 :: losing now rest (l.lose id w now).2

namespace Holding

theorem ne_head (hholding : l.Holding ((id, w) :: rest)) {y : BuildId × WorkerId}
    (hy : y ∈ rest) : y.1 ≠ id := by
  have hnodup := hholding.once
  rw [List.map_cons, List.nodup_cons] at hnodup
  intro heq
  exact hnodup.1 (List.mem_map.2 ⟨y, hy, heq⟩)

theorem find?_tail (now : Instant) (h : l.ListsEnds) (hholding : l.Holding ((id, w) :: rest))
    {y : BuildId × WorkerId} (hy : y ∈ rest) :
    (l.lose id w now).2.find? y.1 = l.find? y.1 := by
  obtain ⟨x, hx, hw⟩ := hholding.held y (List.mem_cons_of_mem _ hy)
  have hid := id_of_find? hx
  have hstays : l.Remembers x := .inl (hid ▸ hx)
  have hkept := remembers_lose (w := w) now h hstays (hid ▸ hholding.ne_head hy)
  rw [hx, ← hid]
  exact hkept.find?_eq (Build.isTerminal_eq_false_of_heldBy hw)

theorem lossOf_tail (now : Instant) (h : l.ListsEnds) (hholding : l.Holding ((id, w) :: rest))
    {y : BuildId × WorkerId} (hy : y ∈ rest) :
    (l.lose id w now).2.lossOf y.1 = l.lossOf y.1 := by
  unfold lossOf
  rw [hholding.find?_tail now h hy, (limits_lose l id w now).1]

theorem tail (now : Instant) (h : l.ListsEnds) (hholding : l.Holding ((id, w) :: rest)) :
    (l.lose id w now).2.Holding rest := by
  constructor
  · exact (List.nodup_cons.1 hholding.once).2
  · intro y hy
    unfold HeldBy
    rw [hholding.find?_tail now h hy]
    exact hholding.held y (List.mem_cons_of_mem _ hy)

end Holding

/-- Each build that goes back to the queue is counted. -/
theorem retried_loseAll (now : Instant) (h : l.ListsEnds) (hholding : l.Holding pairs) :
    (loseAll now pairs l).2.counters.retried =
      l.counters.retried + pairs.countP fun y => (l.lossOf y.1).isRequeued := by
  induction pairs generalizing l with
  | nil => rfl
  | cons pair rest ih =>
    obtain ⟨id, w⟩ := pair
    have hfirst := retried_lose now (hholding.held (id, w) List.mem_cons_self)
    have hrest := ih (h.lose id w now) (hholding.tail now h)
    have hothers : (rest.countP fun y => ((l.lose id w now).2.lossOf y.1).isRequeued) =
        rest.countP fun y => (l.lossOf y.1).isRequeued := by
      apply List.countP_congr
      intro y hy
      rw [hholding.lossOf_tail now h hy]
    change (loseAll now rest (l.lose id w now).2).2.counters.retried = _
    rw [hrest, hfirst, hothers, List.countP_cons]
    omega

theorem remembers_loseAll (now : Instant) (h : l.ListsEnds) (hb : l.Remembers b)
    (hout : ∀ y ∈ pairs, b.id ≠ y.1) : (loseAll now pairs l).2.Remembers b := by
  induction pairs generalizing l with
  | nil => exact hb
  | cons pair rest ih =>
    obtain ⟨first, v⟩ := pair
    have hfirst := remembers_lose (w := v) now h hb (hout (first, v) List.mem_cons_self)
    exact ih (h.lose first v now) hfirst fun y hy => hout y (List.mem_cons_of_mem _ hy)

theorem lost_remembered (now : Instant) (h : l.ListsEnds) (hlimit : 1 ≤ l.historyLimit)
    (hholding : l.Holding pairs) (hmem : (id, w) ∈ pairs) (hb : l.find? id = some b) :
    (loseAll now pairs l).2.Remembers (b.lost l.maxRetries now) := by
  induction pairs generalizing l with
  | nil => cases hmem
  | cons pair rest ih =>
    obtain ⟨first, v⟩ := pair
    have hends := h.lose first v now
    rcases List.mem_cons.1 hmem with heq | hrest
    · cases heq
      obtain ⟨x, hx, hheld⟩ := hholding.held (id, w) hmem
      rw [hb] at hx
      cases hx
      have hid : (b.lost l.maxRetries now).id = id := by
        rw [Build.lost_id, id_of_find? hb]
      have hlost := find?_lose_self now h hlimit hb hheld
      rw [← hid] at hlost
      apply remembers_loseAll now hends (.inl (hid ▸ hlost))
      intro y hy heq
      exact hholding.ne_head hy (heq.symm.trans hid)
    · obtain ⟨hretries, hhistory⟩ := limits_lose l first v now
      have hfind := hholding.find?_tail now h hrest
      have hkept := ih hends (by omega) (hholding.tail now h) hrest (hfind.trans hb)
      rw [hretries] at hkept
      exact hkept

/-- Right after its loss each build can be seen as it is then. -/
theorem exists_losing (now : Instant) (h : l.ListsEnds) (hlimit : 1 ≤ l.historyLimit)
    (hholding : l.Holding pairs) (hmem : (id, w) ∈ pairs) (hb : l.find? id = some b) :
    ∃ stage ∈ losing now pairs l, stage.find? id = some (b.lost l.maxRetries now) := by
  induction pairs generalizing l with
  | nil => cases hmem
  | cons pair rest ih =>
    obtain ⟨first, v⟩ := pair
    rcases List.mem_cons.1 hmem with heq | hrest
    · cases heq
      obtain ⟨x, hx, hheld⟩ := hholding.held (id, w) hmem
      rw [hb] at hx
      cases hx
      exact ⟨_, List.mem_cons_self, find?_lose_self now h hlimit hb hheld⟩
    · obtain ⟨hretries, hhistory⟩ := limits_lose l first v now
      have hfind := hholding.find?_tail now h hrest
      obtain ⟨stage, hstage, hlost⟩ := ih (h.lose first v now) (by omega)
        (hholding.tail now h) hrest (hfind.trans hb)
      rw [hretries] at hlost
      exact ⟨stage, List.mem_cons_of_mem _ hstage, hlost⟩

end Ledger

end BuildPool
