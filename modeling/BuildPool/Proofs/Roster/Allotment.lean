import BuildPool.Ledger.Basic
import BuildPool.Pool.Schedule
import BuildPool.Proofs.Roster.Slots

/-!
# Allotment

The plain rule of a pass: each build in turn goes to the worker that the roster selects for it, and
is skipped if there is none. A worker that is full stays as it is, so a build that was skipped could
not be placed later either.
-/

namespace BuildPool

open BuildPool.Time

/-- What a worker told about itself, and when. -/
def Worker.particulars (w : Worker) : WorkerInfo × Instant × Instant × Usage :=
  (w.info, w.lastHeartbeat, w.registeredAt, w.usage)

theorem Worker.particulars_take (w : Worker) (b : BuildId) :
    (w.take b).particulars = w.particulars := by
  unfold take refresh particulars
  split <;> rfl

namespace Roster

variable {r : Roster} {task : String} {w : Worker} {id x : WorkerId} {y : BuildId}

/-! ## The selected worker -/

theorem foldl_preferred_mem (x : Worker) (rest : List Worker) :
    rest.foldl (fun best w => if w.preferred best then w else best) x ∈ x :: rest := by
  induction rest generalizing x with
  | nil => exact List.mem_cons_self
  | cons y rest ih =>
    rw [List.foldl_cons]
    split
    · exact List.mem_cons_of_mem x (ih y)
    · rcases List.mem_cons.1 (ih x) with hx | hx
      · rw [hx]
        exact List.mem_cons_self
      · exact List.mem_cons_of_mem x (List.mem_cons_of_mem y hx)

theorem mem_of_best {ws : List Worker} (h : best ws = some w) : w ∈ ws := by
  unfold best at h
  split at h
  · cases h
  · cases h
    exact foldl_preferred_mem _ _

theorem best_eq_none_iff {ws : List Worker} : best ws = none ↔ ws = [] := by
  cases ws with
  | nil => simp [best]
  | cons w rest => simp [best]

theorem find?_of_mem (h : w ∈ r.list) : r.find? w.id = some w := mem_list_iff.1 h

theorem mem_list_of_find? (h : r.find? id = some w) : w ∈ r.list := by
  rw [mem_list_iff, id_of_find? h, h]

/-- The selected worker is known, has a free slot, and can run the task. -/
theorem select_eq_some (h : r.select task = some w) :
    r.find? w.id = some w ∧ w.hasFreeSlot = true ∧ w.info.supports task = true := by
  obtain ⟨hmem, hw⟩ := List.mem_filter.1 (mem_of_best h)
  rw [Bool.and_eq_true] at hw
  exact ⟨find?_of_mem hmem, hw.1, hw.2⟩

/-- No worker is selected just when all that can run the task are full or offline. -/
theorem select_eq_none_iff :
    r.select task = none ↔
      ∀ id w, r.find? id = some w → w.info.supports task = true → w.hasFreeSlot = false := by
  rw [select, best_eq_none_iff, candidates, List.filter_eq_nil_iff]
  constructor
  · intro h id w hw hs
    have hno := h w (mem_list_of_find? hw)
    rw [hs, Bool.and_true] at hno
    exact Bool.eq_false_iff.2 hno
  · intro h w hw
    have hw := find?_of_mem hw
    cases hs : w.info.supports task with
    | false => simp
    | true => simp [h _ w hw hs]

theorem hasFreeSlot_eq_false_iff :
    r.hasFreeSlot = false ↔ ∀ id w, r.find? id = some w → w.hasFreeSlot = false := by
  rw [hasFreeSlot, List.any_eq_false]
  constructor
  · exact fun h id w hw => Bool.eq_false_iff.2 (h w (mem_list_of_find? hw))
  · exact fun h w hw => Bool.eq_false_iff.1 (h _ w (find?_of_mem hw))

theorem select_of_full (h : r.hasFreeSlot = false) : r.select task = none :=
  select_eq_none_iff.2 fun id w hw _ => hasFreeSlot_eq_false_iff.1 h id w hw

theorem reserve_of_find? (h : r.find? id = some w) (hfree : w.hasFreeSlot = true) :
    r.reserve id y = .ok (r.put (w.take y)) := by
  simp only [reserve, require, h, bind, Except.bind, hfree, if_true, pure, Except.pure]

/-! ## The plain rule -/

/-- The builds that are placed, in order, each with the worker as it was selected, and the roster
after it. -/
def allot : Roster → List Build → List (Build × Worker) × Roster
  | r, [] => ([], r)
  | r, b :: rest =>
    match r.select b.task with
    | none => r.allot rest
    | some w =>
      let (placed, r) := (r.put (w.take b.id)).allot rest
      ((b, w) :: placed, r)

variable {b : Build} {q rest : List Build}

theorem allot_skip (h : r.select b.task = none) : r.allot (b :: rest) = r.allot rest := by
  rw [allot, h]

theorem allot_place (h : r.select b.task = some w) :
    r.allot (b :: rest) = ((b, w) :: ((r.put (w.take b.id)).allot rest).1,
      ((r.put (w.take b.id)).allot rest).2) := by
  rw [allot, h]

/-- Builds that nobody can take now are left. -/
theorem allot_of_unselected (h : ∀ b ∈ q, r.select b.task = none) : r.allot q = ([], r) := by
  induction q with
  | nil => rfl
  | cons b rest ih =>
    rw [allot_skip (h b List.mem_cons_self)]
    exact ih fun x hx => h x (List.mem_cons_of_mem b hx)

theorem allot_of_full (h : r.hasFreeSlot = false) (q : List Build) : r.allot q = ([], r) :=
  allot_of_unselected fun _ _ => select_of_full h

/-- What holds of no builds, and of a build in front of others whether it is skipped or placed,
holds of all allotments. -/
theorem allot_induction {P : Roster → List Build → Prop} (nil : ∀ r, P r [])
    (skip : ∀ r b rest, r.select b.task = none → P r rest → P r (b :: rest))
    (place : ∀ r b rest w, r.select b.task = some w → P (r.put (w.take b.id)) rest →
      P r (b :: rest)) (r : Roster) (q : List Build) : P r q := by
  induction q generalizing r with
  | nil => exact nil r
  | cons b rest ih =>
    cases h : r.select b.task with
    | none => exact skip r b rest h (ih r)
    | some w => exact place r b rest w h (ih _)

theorem placed_sublist (r : Roster) (q : List Build) :
    ((r.allot q).1.map Prod.fst).Sublist q := by
  induction r, q using allot_induction with
  | nil r => exact .slnil
  | skip r b rest h ih => rw [allot_skip h]; exact ih.cons b
  | place r b rest w h ih => rw [allot_place h]; exact ih.cons_cons b

/-- The workers hold the placed builds besides those that they held before. -/
theorem holds_allot (r : Roster) (q : List Build) :
    (r.allot q).2.Holds x y ↔
      r.Holds x y ∨ ∃ p ∈ (r.allot q).1, p.2.id = x ∧ p.1.id = y := by
  induction r, q using allot_induction with
  | nil r => simp [allot]
  | skip r b rest hs ih => rw [allot_skip hs]; exact ih
  | place r b rest w hs ih =>
    obtain ⟨hw, hfree, -⟩ := select_eq_some hs
    rw [allot_place hs]
    refine ih.trans ?_
    rw [holds_reserve (reserve_of_find? hw hfree)]
    simp only [List.mem_cons, exists_eq_or_imp, or_assoc, @eq_comm _ w.id x, @eq_comm _ b.id y]

/-! ## What stays -/

theorem particulars_allot (r : Roster) (q : List Build) (id : WorkerId) :
    ((r.allot q).2.find? id).map Worker.particulars = (r.find? id).map Worker.particulars := by
  induction r, q using allot_induction with
  | nil r => rfl
  | skip r b rest hs ih => rw [allot_skip hs]; exact ih
  | place r b rest w hs ih =>
    obtain ⟨hw, -, -⟩ := select_eq_some hs
    rw [allot_place hs]
    refine ih.trans ?_
    rw [find?_put, Worker.id, Worker.take_info, ← Worker.id]
    split
    · rename_i hid
      rw [hid, hw, Option.map_some, Option.map_some, Worker.particulars_take]
    · rfl

theorem find?_allot_of_unplaced (r : Roster) (q : List Build)
    (h : ∀ p ∈ (r.allot q).1, p.2.id ≠ id) : (r.allot q).2.find? id = r.find? id := by
  induction r, q using allot_induction with
  | nil r => rfl
  | skip r b rest hs ih =>
    rw [allot_skip hs] at h ⊢
    exact ih h
  | place r b rest w hs ih =>
    rw [allot_place hs] at h ⊢
    have hne : w.id ≠ id := h (b, w) List.mem_cons_self
    refine (ih fun p hp => h p (List.mem_cons_of_mem _ hp)).trans ?_
    rw [find?_put, Worker.id, Worker.take_info, ← Worker.id, if_neg hne.symm]

/-- A worker without a free slot gets nothing. -/
theorem unplaced_of_full (r : Roster) (q : List Build) (hid : r.find? id = some w)
    (hfull : w.hasFreeSlot = false) : ∀ p ∈ (r.allot q).1, p.2.id ≠ id := by
  induction r, q using allot_induction with
  | nil r => exact fun p hp => by cases hp
  | skip r b rest hs ih =>
    rw [allot_skip hs]
    exact ih hid
  | place r b rest v hs ih =>
    obtain ⟨hv, hfree, -⟩ := select_eq_some hs
    have hne : v.id ≠ id := by
      intro heq
      rw [heq, hid] at hv
      cases hv
      rw [hfull] at hfree
      cases hfree
    have hid' : (r.put (v.take b.id)).find? id = some w := by
      rw [find?_put, Worker.id, Worker.take_info, ← Worker.id, if_neg hne.symm, hid]
    rw [allot_place hs]
    intro p hp
    rcases List.mem_cons.1 hp with rfl | hp
    · exact hne
    · exact ih hid' p hp

/-- After an allotment no worker has a free slot for a build that was skipped, and what a worker
that could run it was given stands before it in the list. -/
theorem allot_fair (r : Roster) (q : List Build)
    (hq : q.Pairwise fun a b => a.entry.before b.entry = true) (hb : b ∈ q)
    (hskip : ∀ p ∈ (r.allot q).1, p.1 ≠ b) (hid : (r.allot q).2.find? id = some w)
    (hs : w.info.supports b.task = true) :
    w.hasFreeSlot = false ∧ ∀ p ∈ (r.allot q).1, p.2.id = id → p.1.entry.before b.entry = true := by
  induction r, q using allot_induction with
  | nil r => cases hb
  | skip r c rest hnone ih =>
    rw [allot_skip hnone] at hskip hid ⊢
    rcases List.mem_cons.1 hb with rfl | hb
    · -- The worker is as it was when the build was skipped, so it is full and got nothing.
      have hsame := particulars_allot r rest id
      rw [hid] at hsame
      cases hw : r.find? id with
      | none => rw [hw] at hsame; cases hsame
      | some v =>
        rw [hw, Option.map_some, Option.map_some, Option.some.injEq] at hsame
        have hinfo : w.info = v.info := congrArg Prod.fst hsame
        have hfull := select_eq_none_iff.1 hnone id v hw (hinfo ▸ hs)
        have hno := unplaced_of_full r rest hw hfull
        have hkept := find?_allot_of_unplaced r rest hno
        rw [hid, hw] at hkept
        cases hkept
        exact ⟨hfull, fun p hp heq => absurd heq (hno p hp)⟩
    · exact ih (List.pairwise_cons.1 hq).2 hb hskip hid
  | place r c rest v hv ih =>
    rw [allot_place hv] at hskip hid ⊢
    obtain ⟨hbefore, hrest⟩ := List.pairwise_cons.1 hq
    rcases List.mem_cons.1 hb with rfl | hb
    · exact absurd rfl (hskip (_, v) List.mem_cons_self)
    · obtain ⟨hfull, hfair⟩ :=
        ih hrest hb (fun p hp => hskip p (List.mem_cons_of_mem _ hp)) hid
      refine ⟨hfull, fun p hp heq => ?_⟩
      rcases List.mem_cons.1 hp with rfl | hp
      · exact hbefore b hb
      · exact hfair p hp heq

end Roster

end BuildPool
