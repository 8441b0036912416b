import Mathlib.Data.List.DropRight
import BuildPool.Proofs.Ledger.Chronicle

/-!
# The builds that ended last

Each build that ends enters the history at its end, and the limit cuts the history at its front. So
the history can be told from the ends alone: it is the last part of all of them.
-/

namespace BuildPool

open BuildPool.Time

/-- The build whose end this is. -/
def Milestone.ended? : Milestone → Option BuildId
  | .started _ => none
  | .finished b => some b.id

theorem Milestone.of_ended? {m : Milestone} {id : BuildId} (h : m.ended? = some id) :
    m = .finished m.build ∧ m.build.id = id := by
  cases m with
  | started b => cases h
  | finished b => cases h; exact ⟨rfl, rfl⟩

def Counters.ended (c : Counters) : Nat := c.completed + c.failed + c.cancelled

/-- The last of some entries and of what comes after them are the last of all. -/
theorem rtake_append_rtake {α : Type} (xs ys : List α) (n : Nat) :
    (xs.rtake n ++ ys).rtake n = (xs ++ ys).rtake n := by
  simp only [List.rtake_eq_reverse_take_reverse, List.reverse_append, List.reverse_reverse,
    List.take_append, List.take_take]
  rw [Nat.min_eq_left (Nat.sub_le n _)]

theorem rtake_of_length_le {α : Type} {xs : List α} {n : Nat} (h : xs.length ≤ n) :
    xs.rtake n = xs := by
  rw [List.rtake, Nat.sub_eq_zero_of_le h, List.drop_zero]

namespace Ledger

variable {given : List BuildId} {l l' l'' : Ledger} {b c : Build} {id : BuildId} {w : WorkerId}
  {now : Instant} {ids more : List BuildId} {ls : List Ledger}

/-! ## Ends and the history -/

/-- These builds ended, one after the other: each entered the history and was counted. -/
structure Enters (ids : List BuildId) (l l' : Ledger) : Prop where
  limit : l'.historyLimit = l.historyLimit
  history : l'.history = (l.history ++ ids).rtake l.historyLimit
  counted : l'.counters.ended = l.counters.ended + ids.length

namespace Enters

theorem none (hfits : l.history.length ≤ l.historyLimit) (hlimit : l'.historyLimit = l.historyLimit)
    (hhistory : l'.history = l.history) (hcounted : l'.counters.ended = l.counters.ended) :
    Enters [] l l' where
  limit := hlimit
  history := by rw [List.append_nil, rtake_of_length_le hfits, hhistory]
  counted := hcounted

theorem trans (h : Enters ids l l') (h' : Enters more l' l'') : Enters (ids ++ more) l l'' where
  limit := h'.limit.trans h.limit
  history := by
    rw [h'.history, h.history, h.limit, rtake_append_rtake, List.append_assoc]
  counted := by
    rw [h'.counted, h.counted, List.length_append, Nat.add_assoc]

theorem fits (h : Enters ids l l') : l'.history.length ≤ l'.historyLimit := by
  rw [h.limit, h.history, List.rtake, List.length_drop]
  omega

theorem archive (l : Ledger) (hend : c.isTerminal = true) : Enters [c.id] l (l.archive c) where
  limit := rfl
  history := rfl
  counted := (l.counters.countEnd_ended hend).2

end Enters

/-! ## From one ledger to the next -/

/-- The builds that ended from one ledger to the next. -/
def endsTo (l l' : Ledger) : List BuildId := (l.milestones l').filterMap Milestone.ended?

/-- The builds that ended on the way through some ledgers. -/
def endsAlong (l : Ledger) (ls : List Ledger) : List BuildId :=
  (l.trail ls).filterMap Milestone.ended?

theorem endsAlong_cons (l l' : Ledger) (ls : List Ledger) :
    l.endsAlong (l' :: ls) = l.endsTo l' ++ l'.endsAlong ls :=
  List.filterMap_append

theorem endsTo_eq_nil
    (h : ∀ id b', l.IsOpen id → l'.find? id = some b' → b'.isTerminal = false) :
    l.endsTo l' = [] := by
  apply List.filterMap_eq_nil_iff.2
  intro m hm
  obtain ⟨b, hb, hopen, hb', ⟨-, hend⟩ | ⟨hstarted, -⟩⟩ := of_mem_milestones hm
  · rw [h _ _ ⟨b, hb, hopen⟩ hb'] at hend
    cases hend
  · rw [hstarted]
    rfl

theorem Rewrites.endsTo_eq (h : Rewrites l l' b c) (hopen : b.isTerminal = false)
    (hend : c.isTerminal = true) : l.endsTo l' = [c.id] := by
  unfold endsTo
  rw [h.milestones_eq, Milestone.between_of_end hopen hend]
  rfl

theorem Rewrites.endsTo_eq_nil (h : Rewrites l l' b c) (hopen : c.isTerminal = false) :
    l.endsTo l' = [] := by
  apply Ledger.endsTo_eq_nil
  intro id b' hbefore hb'
  by_cases hid : id = c.id
  · rw [hid, h.after] at hb'
    cases hb'
    exact hopen
  · obtain ⟨x, hx, hxopen⟩ := hbefore
    rw [h.old id b' hid hb'] at hx
    cases hx
    exact hxopen

/-- The build that ends is seen to end, and enters the history. -/
theorem enters_archive (h : l.ListsEnds) (hlimit : 1 ≤ l.historyLimit)
    (hb : l.find? c.id = some b) (hopen : b.isTerminal = false) (hend : c.isTerminal = true) :
    Enters (l.endsTo (l.archive c)) l (l.archive c) := by
  have hrewrites := rewrites_archive h hlimit hb hopen hend
  rw [hrewrites.endsTo_eq hopen hend]
  exact .archive l hend

/-! ## Losses -/

theorem enters_lose (h : l.ListsEnds) (hlimit : 1 ≤ l.historyLimit)
    (hfits : l.history.length ≤ l.historyLimit) (id : BuildId) (w : WorkerId) (now : Instant) :
    Enters (l.endsTo (l.lose id w now).2) l (l.lose id w now).2 := by
  rcases lose_cases l id w now with ⟨-, heq⟩ | ⟨b, hb, hheld, ⟨-, heq⟩ | ⟨-, heq⟩⟩
  · rw [heq, endsTo, milestones_self]
    exact .none hfits rfl rfl rfl
  · obtain rfl := id_of_find? hb
    rw [heq]
    exact enters_archive (b := b) h hlimit hb (Build.isTerminal_eq_false_of_heldBy hheld) rfl
  · obtain rfl := id_of_find? hb
    have hput : Rewrites l (l.put { b with retries := b.retries + 1 }.requeue) b
        { b with retries := b.retries + 1 }.requeue := rewrites_put hb
    have hnobody : l.endsTo (l.put { b with retries := b.retries + 1 }.requeue) = [] :=
      hput.endsTo_eq_nil rfl
    rw [heq]
    change Enters (l.endsTo (l.put { b with retries := b.retries + 1 }.requeue)) l _
    rw [hnobody]
    exact .none hfits rfl rfl rfl

theorem enters_losing (h : l.ListsEnds) (hlimit : 1 ≤ l.historyLimit)
    (hfits : l.history.length ≤ l.historyLimit) (now : Instant)
    (pairs : List (BuildId × WorkerId)) :
    Enters (l.endsAlong (losing now pairs l)) l (loseAll now pairs l).2 := by
  induction pairs generalizing l with
  | nil => exact .none hfits rfl rfl rfl
  | cons pair rest ih =>
    obtain ⟨id, w⟩ := pair
    have hfirst := enters_lose h hlimit hfits id w now
    have hlimit' : 1 ≤ (l.lose id w now).2.historyLimit := by rw [hfirst.limit]; exact hlimit
    rw [losing, endsAlong_cons]
    exact hfirst.trans (ih (h.lose id w now) hlimit' hfirst.fits)

/-! ## Ledgers with the same builds -/

theorem milestones_congr (hfind : ∀ id, l.find? id = l'.find? id) (l'' : Ledger) :
    l.milestones l'' = l'.milestones l'' := by
  unfold milestones
  simp only [hfind]

theorem trail_congr (hfind : ∀ id, l.find? id = l'.find? id) (ls : List Ledger) :
    l.trail ls = l'.trail ls := by
  cases ls with
  | nil => rfl
  | cons l'' rest => rw [trail, trail, milestones_congr hfind]

theorem isOpen_congr (hfind : ∀ id, l.find? id = l'.find? id) : l.IsOpen id ↔ l'.IsOpen id := by
  unfold IsOpen
  rw [hfind]

theorem Chronicle.congr {Before : BuildId → Prop} {ms : List Milestone}
    (h : Chronicle Before ms given l) (hfind : ∀ id, l.find? id = l'.find? id) :
    Chronicle Before ms given l' where
  known id b hb := h.known id b ((hfind id).trans hb)
  before id hid := by
    rw [← isOpen_congr hfind]
    exact h.before id hid
  ends id := by
    rw [← isOpen_congr hfind]
    exact h.ends id
  final := h.final
  attempts := h.attempts
  begun b hb := by
    rw [← hfind]
    exact h.begun b hb

/-! ## All ends -/

/-- Nothing of a build comes after its end, so no build ends twice. -/
theorem Chronicle.nodup_ended {Before : BuildId → Prop} {ms : List Milestone}
    (h : Chronicle Before ms given l) : (ms.filterMap Milestone.ended?).Nodup := by
  apply List.pairwise_filterMap.2
  apply h.final.imp
  intro m m' hfinal id hid id' hid' heq
  obtain ⟨hend, hm⟩ := Milestone.of_ended? hid
  obtain ⟨-, hm'⟩ := Milestone.of_ended? hid'
  have hisEnd : m.isEnd = true := by rw [hend]; rfl
  exact hfinal hisEnd (by rw [hm, hm', heq])

theorem Chronicle.mem_ended {Before : BuildId → Prop} {ms : List Milestone}
    (h : Chronicle Before ms given l) :
    id ∈ ms.filterMap Milestone.ended? ↔ (id ∈ given ∧ ¬ l.IsOpen id) ∧ ¬ Before id := by
  rw [← h.ends id, List.mem_filterMap]
  constructor
  · rintro ⟨m, hm, hid⟩
    obtain ⟨hend, hbuild⟩ := Milestone.of_ended? hid
    exact ⟨m.build, hend ▸ hm, hbuild⟩
  · rintro ⟨b, hb, rfl⟩
    exact ⟨.finished b, hb, rfl⟩

end Ledger

end BuildPool
