import BuildPool.Proofs.Ledger.Balance
import BuildPool.Proofs.Ledger.Changes
import BuildPool.Proofs.Ledger.Losses

/-!
# Milestones

A build starts when its worker takes it, and it ends once. Both show when a ledger is compared with
the one before it, as long as a build that ends is still kept then.
-/

namespace BuildPool

open BuildPool.Time

/-- A build started or ended, with its record from then on. -/
inductive Milestone
  | started (b : Build)
  | finished (b : Build)
deriving DecidableEq

namespace Milestone

def build : Milestone → Build
  | .started b | .finished b => b

def isEnd : Milestone → Bool
  | .started _ => false
  | .finished _ => true

/-- The attempt at a build that started. -/
def attempt? : Milestone → Option (BuildId × Nat)
  | .started b => some (b.id, b.attempt)
  | .finished _ => none

/-- What a build has passed if its record changed so. -/
def between (b b' : Build) : Option Milestone :=
  if b.isTerminal = false ∧ b'.isTerminal = true then some (.finished b')
  else if b.status = .assigned ∧ b'.status = .running then some (.started b')
  else none

variable {b b' : Build} {m : Milestone}

theorem between_self (b : Build) : between b b = none := by
  unfold between
  rw [if_neg, if_neg]
  · rintro ⟨hassigned, hrunning⟩
    rw [hassigned] at hrunning
    cases hrunning
  · rintro ⟨hopen, hend⟩
    rw [hopen] at hend
    cases hend

theorem between_of_end (hopen : b.isTerminal = false) (hend : b'.isTerminal = true) :
    between b b' = some (.finished b') := by
  unfold between
  rw [if_pos ⟨hopen, hend⟩]

theorem between_of_open (hopen : b'.isTerminal = false) :
    between b b' = if b.status = .assigned ∧ b'.status = .running then some (.started b')
      else none := by
  unfold between
  rw [if_neg]
  rintro ⟨-, hend⟩
  rw [hopen] at hend
  cases hend

/-- The first sign of life of an assigned build starts it. -/
theorem between_advance {w : WorkerId} (hheld : b.heldBy w = true) (amount : Float) :
    between b (b.advance amount) =
      if b.status = .assigned then some (.started (b.advance amount)) else none := by
  have hopen : (b.advance amount).isTerminal = false :=
    Build.isTerminal_eq_false_of_holdsWorker
      (b.advance_holdsWorker (Build.heldBy_iff.1 hheld).1 amount)
  rw [between_of_open hopen]
  by_cases hs : b.status = .assigned
  · have hrunning : (b.advance amount).status = .running := by
      unfold Build.advance
      rw [if_pos hs]
      rfl
    rw [if_pos ⟨hs, hrunning⟩, if_pos hs]
  · rw [if_neg fun hboth => hs hboth.1, if_neg hs]

/-- Only open builds pass a milestone, and it keeps the new record. -/
theorem of_between (h : between b b' = some m) :
    m.build = b' ∧ b.isTerminal = false ∧
      ((m = .finished b' ∧ b'.isTerminal = true) ∨
        (m = .started b' ∧ b.status = .assigned ∧ b'.status = .running)) := by
  unfold between at h
  split at h
  · rename_i hends
    cases h
    exact ⟨rfl, hends.1, .inl ⟨rfl, hends.2⟩⟩
  · split at h
    · rename_i hstarts
      cases h
      refine ⟨rfl, ?_, .inr ⟨rfl, hstarts⟩⟩
      unfold Build.isTerminal
      rw [hstarts.1]
      rfl
    · cases h

end Milestone

namespace Ledger

open Milestone

variable {given : List BuildId} {l l' : Ledger} {b c x : Build} {id : BuildId} {w : WorkerId}
  {now : Instant} {m : Milestone}

/-! ## From one ledger to the next -/

/-- What builds have passed from one ledger to the next. -/
def milestones (l l' : Ledger) : List Milestone :=
  l'.builds.toList.filterMap fun b' => (l.find? b'.id).bind fun b => between b b'

theorem mem_milestones : m ∈ l.milestones l' ↔
    ∃ b b', l.find? b'.id = some b ∧ l'.find? b'.id = some b' ∧ between b b' = some m := by
  unfold milestones
  rw [List.mem_filterMap]
  constructor
  · rintro ⟨b', hb', hbind⟩
    obtain ⟨b, hb, hm⟩ := Option.bind_eq_some_iff.1 hbind
    exact ⟨b, b', hb, mem_builds_iff.1 hb', hm⟩
  · rintro ⟨b, b', hb, hb', hm⟩
    exact ⟨b', mem_builds_iff.2 hb', Option.bind_eq_some_iff.2 ⟨b, hb, hm⟩⟩

/-- A build passes one milestone at a time. -/
theorem pairwise_milestones (l l' : Ledger) :
    (l.milestones l').Pairwise fun m m' => m.build.id ≠ m'.build.id := by
  unfold milestones
  apply List.pairwise_filterMap.2
  apply l'.builds.ordered.imp
  intro a a' hlt m hm m' hm' heq
  obtain ⟨b, -, hbetween⟩ := Option.bind_eq_some_iff.1 hm
  obtain ⟨b', -, hbetween'⟩ := Option.bind_eq_some_iff.1 hm'
  rw [(of_between hbetween).1, (of_between hbetween').1] at heq
  have hkey : a.key = a'.key := congrArg BuildId.text heq
  rw [hkey] at hlt
  exact String.lt_irrefl _ hlt

theorem milestones_eq_nil (h : ∀ b b', l.find? b'.id = some b → l'.find? b'.id = some b' →
    between b b' = none) : l.milestones l' = [] := by
  apply List.eq_nil_iff_forall_not_mem.2
  intro m hm
  obtain ⟨b, b', hb, hb', hbetween⟩ := mem_milestones.1 hm
  rw [h b b' hb hb'] at hbetween
  cases hbetween

theorem milestones_self (l : Ledger) : l.milestones l = [] := by
  apply milestones_eq_nil
  intro b b' hb hb'
  rw [hb] at hb'
  cases hb'
  exact between_self b

/-! ## One record written anew -/

/-- The record of one build is written anew. Others stay, but for some that ended before. -/
structure Rewrites (l l' : Ledger) (b c : Build) : Prop where
  before : l.find? c.id = some b
  after : l'.find? c.id = some c
  kept : ∀ x, x.id ≠ c.id → l.Remembers x → l'.Remembers x
  old : ∀ id x, id ≠ c.id → l'.find? id = some x → l.find? id = some x

theorem rewrites_put (hb : l.find? c.id = some b) : Rewrites l (l.put c) b c where
  before := hb
  after := find?_put_self l c
  kept _ hne hx := remembers_put hx hne
  old id x hne hx := by
    rw [find?_put_of_ne l c hne] at hx
    exact hx

theorem rewrites_archive (h : l.ListsEnds) (hlimit : 1 ≤ l.historyLimit)
    (hb : l.find? c.id = some b) (hopen : b.isTerminal = false) (hend : c.isTerminal = true) :
    Rewrites l (l.archive c) b c where
  before := hb
  after := find?_archive_self h hb hopen hlimit
  kept _ hne hx := remembers_archive h hend hx hne
  old id x hne hx := by
    rcases find?_archive_cases hx with ⟨heq, -⟩ | ⟨-, hbefore⟩
    · exact absurd heq hne
    · exact hbefore

theorem filterMap_eq_toList {α β : Type} {f : α → Option β} {a : α} {xs : List α}
    (hnodup : xs.Nodup) (ha : a ∈ xs) (hothers : ∀ x ∈ xs, x ≠ a → f x = none) :
    xs.filterMap f = (f a).toList := by
  induction xs with
  | nil => cases ha
  | cons x rest ih =>
    obtain ⟨hx, hrest⟩ := List.nodup_cons.1 hnodup
    rw [List.filterMap_cons]
    rcases List.mem_cons.1 ha with rfl | ha
    · have hnone : rest.filterMap f = [] := by
        apply List.filterMap_eq_nil_iff.2
        intro y hy
        apply hothers y (List.mem_cons_of_mem _ hy)
        rintro rfl
        exact hx hy
      rw [hnone]
      cases f a <;> rfl
    · have hne : x ≠ a := by
        rintro rfl
        exact hx ha
      rw [hothers x List.mem_cons_self hne]
      exact ih hrest ha fun y hy => hothers y (List.mem_cons_of_mem x hy)

theorem Rewrites.milestones_eq (h : Rewrites l l' b c) :
    l.milestones l' = (between b c).toList := by
  have hmem : c ∈ l'.builds.toList := mem_builds_iff.2 h.after
  have hothers : ∀ x ∈ l'.builds.toList, x ≠ c →
      ((l.find? x.id).bind fun b => between b x) = none := by
    intro x hx hne
    have hfind : l'.find? x.id = some x := mem_builds_iff.1 hx
    have hid : x.id ≠ c.id := by
      intro heq
      rw [heq, h.after] at hfind
      exact hne (Option.some.inj hfind).symm
    rw [h.old x.id x hid hfind]
    exact between_self x
  have hnodup : l'.builds.toList.Nodup := l'.builds.nodup_items
  have hone := filterMap_eq_toList hnodup hmem hothers
  unfold milestones
  rw [hone, h.before]
  rfl

/-! ## Every operation -/

theorem rewrites_acknowledge? {attempt : Nat} (hs : l.acknowledge? id w attempt = some l') :
    ∃ b, l.find? id = some b ∧ b.awaits w attempt = true ∧ Rewrites l l' b b.start := by
  obtain ⟨b, hb, ha, rfl⟩ := acknowledge?_eq_some hs
  refine ⟨b, hb, ha, ?_⟩
  obtain rfl := id_of_find? hb
  exact rewrites_put (c := b.start) hb

theorem rewrites_rollback? {attempt : Nat} (hs : l.rollback? id w attempt = some l') :
    ∃ b, Rewrites l l' b b.requeue := by
  obtain ⟨b, hb, -, rfl⟩ := rollback?_eq_some hs
  obtain rfl := id_of_find? hb
  have hput : Rewrites l (l.put b.requeue) b b.requeue := rewrites_put hb
  exact ⟨b, hput.before, hput.after, hput.kept, hput.old⟩

theorem rewrites_progress {amount : Float} (hs : l.progress id w amount = .ok (some l')) :
    ∃ b, l.find? id = some b ∧ b.heldBy w = true ∧ Rewrites l l' b (b.advance amount) := by
  obtain ⟨b, hb, hheld, rfl⟩ := progress_eq_ok hs
  refine ⟨b, hb, hheld, ?_⟩
  obtain rfl := id_of_find? hb
  exact rewrites_put ((b.advance_id amount).symm ▸ hb)

theorem rewrites_complete {r : Report} (h : Records given l) (hlimit : 1 ≤ l.historyLimit)
    (hs : l.complete id r now = .ok (some l')) :
    ∃ b, l.find? id = some b ∧ b.heldBy r.worker = true ∧
      Rewrites l l' b (b.finish (verdict r).1 (verdict r).2 now) := by
  obtain ⟨b, hb, hheld, rfl⟩ := complete_eq_ok hs
  refine ⟨b, hb, hheld, ?_⟩
  obtain rfl := id_of_find? hb
  exact rewrites_archive (b := b) h.listsEnds hlimit hb (Build.isTerminal_eq_false_of_heldBy hheld)
    (isTerminal_verdict r)

theorem rewrites_satisfy? {artifacts : List String} (h : Records given l)
    (hlimit : 1 ≤ l.historyLimit) (hs : l.satisfy? id artifacts now = some l') :
    ∃ b, l.find? id = some b ∧ b.status = .queued ∧
      Rewrites l l' b (b.finish .completed { success := true, artifacts } now) := by
  obtain ⟨b, hb, hq, rfl⟩ := satisfy?_eq_some hs
  refine ⟨b, hb, hq, ?_⟩
  obtain rfl := id_of_find? hb
  have hrecords := h.withQueue l.backlog
    { l.counters with cacheHits := l.counters.cacheHits + 1 }
  have harchive := rewrites_archive (b := b)
    (c := b.finish .completed { success := true, artifacts } now) hrecords.listsEnds hlimit hb
    (Build.isTerminal_eq_false_of_queued hq) rfl
  exact ⟨harchive.before, harchive.after, harchive.kept, harchive.old⟩

theorem rewrites_cancel {answer : Cancellation} (h : Records given l)
    (hlimit : 1 ≤ l.historyLimit) (hs : l.cancel id now = .ok (answer, l')) :
    (answer.changed = false ∧ l' = l) ∨
      ∃ b, l.find? id = some b ∧ b.isTerminal = false ∧ answer.changed = true ∧
        Rewrites l l' b (b.finish .cancelled (.failure cancelledReason) now) := by
  obtain ⟨b, hb, ⟨-, rfl, rfl⟩ | ⟨hopen, rfl, rfl⟩⟩ := cancel_eq_ok hs
  · exact .inl ⟨rfl, rfl⟩
  · refine .inr ⟨b, hb, hopen, rfl, ?_⟩
    obtain rfl := id_of_find? hb
    exact rewrites_archive (b := b) h.listsEnds hlimit hb hopen rfl

theorem rewrites_lose (h : Records given l) (hlimit : 1 ≤ l.historyLimit) (id : BuildId)
    (w : WorkerId) (now : Instant) :
    l.lose id w now = (.notHeld, l) ∨
      ∃ b, l.find? id = some b ∧ b.isTerminal = false ∧
        Rewrites l (l.lose id w now).2 b (b.lost l.maxRetries now) ∧
        (((l.lose id w now).1 = .failed ∧ (b.lost l.maxRetries now).isTerminal = true) ∨
          ((l.lose id w now).1 = .requeued (b.retries + 1) ∧
            (b.lost l.maxRetries now).status = .queued)) := by
  rcases lose_cases l id w now with ⟨-, heq⟩ | ⟨b, hb, hheld, ⟨hspent, heq⟩ | ⟨hleft, heq⟩⟩
  · exact .inl heq
  · have hopen := Build.isTerminal_eq_false_of_heldBy hheld
    refine .inr ⟨b, hb, hopen, ?_⟩
    obtain rfl := id_of_find? hb
    unfold Build.lost
    rw [heq, if_neg (by omega)]
    have harchive := rewrites_archive (b := b)
      (c := { b with retries := l.maxRetries }.finish .failed (.failure retriesExhausted) now)
      h.listsEnds hlimit hb hopen rfl
    exact ⟨harchive, .inl ⟨rfl, rfl⟩⟩
  · refine .inr ⟨b, hb, Build.isTerminal_eq_false_of_heldBy hheld, ?_⟩
    obtain rfl := id_of_find? hb
    unfold Build.lost
    rw [heq, if_pos (by omega)]
    have hput : Rewrites l (l.put { b with retries := b.retries + 1 }.requeue) b
        { b with retries := b.retries + 1 }.requeue := rewrites_put hb
    exact ⟨⟨hput.before, hput.after, hput.kept, hput.old⟩, .inr ⟨rfl, rfl⟩⟩

/-! ## Several ledgers in a row -/

/-- What builds have passed on the way through some ledgers. -/
def trail : Ledger → List Ledger → List Milestone
  | _, [] => []
  | l, l' :: rest => l.milestones l' ++ trail l' rest

theorem trail_losing (now : Instant) (pairs : List (BuildId × WorkerId)) (l l' : Ledger) :
    l.trail (losing now pairs l ++ [l']) =
      l.trail (losing now pairs l) ++ (loseAll now pairs l).2.milestones l' := by
  induction pairs generalizing l with
  | nil => exact List.append_nil _
  | cons pair rest ih =>
    obtain ⟨id, w⟩ := pair
    rw [losing, List.cons_append, trail, ih, trail, List.append_assoc]
    rfl

end Ledger

end BuildPool
