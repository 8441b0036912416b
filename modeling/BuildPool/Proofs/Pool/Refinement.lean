import BuildPool.Proofs.Pool.Reachable

/-!
# Passes follow the plain rule

A pass gives builds to workers just as the plain rule does that goes through the queued builds in
their order. It stops by itself, and no worker that it selects is refused.
-/

namespace BuildPool

open BuildPool.Time

namespace Ledger

variable {l : Ledger} {b : Build} {id : BuildId} {now : Instant}

/-! ## Builds that are given to workers -/

/-- Gives builds to workers, one after the other. -/
def give (now : Instant) (placed : List (Build × Worker)) (l : Ledger) : Ledger :=
  placed.foldl (fun l p => l.put (p.1.assignTo p.2.id now)) l

theorem give_cons (p : Build × Worker) (placed : List (Build × Worker)) (l : Ledger) :
    give now (p :: placed) l = give now placed (l.put (p.1.assignTo p.2.id now)) := rfl

theorem give_withBacklog (placed : List (Build × Worker)) (l : Ledger) (q q' : Backlog) :
    { give now placed { l with backlog := q } with backlog := q' } =
      { give now placed l with backlog := q' } := by
  induction placed generalizing l with
  | nil => rfl
  | cons p rest ih => exact ih (l.put (p.1.assignTo p.2.id now))

theorem give_eq (placed : List (Build × Worker)) (l : Ledger) :
    give now placed l = { l with builds := (give now placed l).builds } := by
  induction placed generalizing l with
  | nil => rfl
  | cons p rest ih => exact ih (l.put (p.1.assignTo p.2.id now))

theorem find?_give_of_not_mem {placed : List (Build × Worker)} (l : Ledger)
    (h : ∀ p ∈ placed, p.1.id ≠ id) : (give now placed l).find? id = l.find? id := by
  induction placed generalizing l with
  | nil => rfl
  | cons p rest ih =>
    rw [give_cons, ih _ fun x hx => h x (List.mem_cons_of_mem p hx)]
    exact find?_put_of_ne l _ (h p List.mem_cons_self).symm

theorem find?_give_of_mem {placed : List (Build × Worker)} {p : Build × Worker} (l : Ledger)
    (hnodup : (placed.map fun p => p.1.id).Nodup) (hp : p ∈ placed) :
    (give now placed l).find? p.1.id = some (p.1.assignTo p.2.id now) := by
  induction placed generalizing l with
  | nil => cases hp
  | cons x rest ih =>
    rw [List.map_cons, List.nodup_cons] at hnodup
    rw [give_cons]
    rcases List.mem_cons.1 hp with rfl | hp
    · rw [find?_give_of_not_mem]
      · exact find?_put_self l _
      · exact fun y hy heq => hnodup.1 (heq ▸ List.mem_map_of_mem hy)
    · exact ih _ hnodup.2 hp

/-! ## The queue in the course of a pass -/

theorem size_of_popQueued {l' : Ledger} {e : Entry} (hp : l.popQueued = (some e, l')) :
    l'.backlog.size < l.backlog.size := by
  obtain ⟨dead, hperm, -⟩ := popQueued_perm l
  have hlen := hperm.length_eq
  rw [hp] at hlen
  simp only [List.length_append, Option.toList_some, List.length_singleton] at hlen
  rw [Backlog.size_eq_length, Backlog.size_eq_length]
  omega

theorem popQueued_of_size_eq_zero (h : l.backlog.size = 0) : l.popQueued = (none, l) := by
  rw [popQueued, Backlog.popFirst, h, Backlog.searchFirst]

/-- A build that is given to a worker no longer waits; the others do. -/
theorem waiting_put_assignTo {rest : List Build} (w : WorkerId) (now : Instant)
    (hw : l.waiting = rest.map Build.entry) (hne : ∀ c ∈ rest, c.id ≠ b.id) :
    (l.put (b.assignTo w now)).waiting = rest.map Build.entry := by
  have hq : ∀ e : Entry, (l.put (b.assignTo w now)).isQueued e.build =
      (decide (e.build ≠ b.id) && l.isQueued e.build) := by
    intro e
    rw [isQueued, find?_put]
    change Option.any _ (if e.build = b.id then _ else _) = _
    by_cases he : e.build = b.id
    · simp [he, Build.assignTo]
    · simp [he, isQueued]
  have hfilter : (l.put (b.assignTo w now)).waiting =
      l.waiting.filter fun e => decide (e.build ≠ b.id) := by
    rw [waiting, waiting, List.filter_filter]
    exact List.filter_congr fun e _ => hq e
  rw [hfilter, hw, List.filter_eq_self]
  intro e he
  obtain ⟨c, hc, rfl⟩ := List.mem_map.1 he
  exact decide_eq_true (hne c hc)

end Ledger

/-! ## The loop -/

namespace Passing

variable {given : List BuildId} {s : Passing} {l : Ledger} {e : Entry} {now : Instant}
  {timeout : UInt64}

theorem run_of_full (h : s.roster.hasFreeSlot = false) (fuel : Nat) :
    run now timeout fuel s = s := by
  cases fuel with
  | zero => rfl
  | succ fuel => rw [run, if_neg (by rw [h]; exact Bool.false_ne_true)]

theorem run_of_popQueued_none (h : s.roster.hasFreeSlot = true)
    (hp : s.ledger.popQueued = (none, l)) (fuel : Nat) :
    run now timeout (fuel + 1) s = { s with ledger := l } := by
  rw [run, if_pos h, hp]

theorem run_of_popQueued_some (h : s.roster.hasFreeSlot = true)
    (hp : s.ledger.popQueued = (some e, l)) (fuel : Nat) :
    run now timeout (fuel + 1) s =
      run now timeout fuel ({ s with ledger := l }.step e now timeout) := by
  rw [run, if_pos h, hp]

theorem popQueued_eq {l : Ledger} {entries : List Entry} (h : l.waiting = entries) :
    ∃ backlog, l.popQueued = (entries.head?, { l with backlog }) := by
  subst h
  exact ⟨l.popQueued.2.backlog, by rw [← Ledger.popQueued_found]; rfl⟩

/-- A pass through a list of queued builds does what the plain rule does with it. -/
theorem run_eq (now : Instant) (timeout : UInt64) (q : List Build) (s : Passing) (fuel : Nat)
    (hfuel : q.length ≤ fuel)
    (hwaiting : s.ledger.waiting = q.map Build.entry)
    (hqueued : ∀ b ∈ q, s.ledger.find? b.id = some b ∧ b.status = .queued)
    (hnodup : (q.map Build.id).Nodup) :
    ∃ backlog deferred, run now timeout fuel s =
      { ledger := { Ledger.give now (s.roster.allot q).1 s.ledger with backlog }
        roster := (s.roster.allot q).2
        assignments :=
          s.assignments ++ (s.roster.allot q).1.map fun p => p.1.assignment p.2 timeout
        deferred } := by
  -- The induction follows the queue. Entries that were set aside do not come up again in the loop.
  induction q generalizing s fuel with
  | nil =>
    simp only [Roster.allot, List.map_nil, List.append_nil]
    cases hfree : s.roster.hasFreeSlot with
    | false => exact ⟨s.ledger.backlog, s.deferred, run_of_full hfree fuel⟩
    | true =>
      cases fuel with
      | zero => exact ⟨s.ledger.backlog, s.deferred, rfl⟩
      | succ fuel =>
        obtain ⟨backlog, hp⟩ := popQueued_eq hwaiting
        exact ⟨backlog, s.deferred, run_of_popQueued_none hfree hp fuel⟩
  | cons b rest ih =>
    cases hfree : s.roster.hasFreeSlot with
    | false =>
      -- The loop stops here, and the rule finds no worker for any of the builds that are left.
      rw [run_of_full hfree, Roster.allot_of_full hfree]
      refine ⟨s.ledger.backlog, s.deferred, ?_⟩
      rw [List.map_nil, List.append_nil]
      rfl
    | true =>
      obtain ⟨fuel, rfl⟩ : ∃ n, fuel = n + 1 :=
        ⟨fuel - 1, by rw [List.length_cons] at hfuel; omega⟩
      rw [List.length_cons, Nat.add_le_add_iff_right] at hfuel
      rw [List.map_cons, List.nodup_cons] at hnodup
      obtain ⟨hb, hq⟩ := hqueued b List.mem_cons_self
      have hrest := fun c hc => hqueued c (List.mem_cons_of_mem b hc)
      have hne : ∀ c ∈ rest, c.id ≠ b.id := fun c hc heq =>
        hnodup.1 (heq ▸ List.mem_map_of_mem hc)
      obtain ⟨backlog, hp⟩ := popQueued_eq hwaiting
      have htail : { s.ledger with backlog }.waiting = rest.map Build.entry := by
        have := Ledger.waiting_popQueued s.ledger
        rw [hp, hwaiting] at this
        exact this
      rw [run_of_popQueued_some hfree hp]
      cases hs : s.roster.select b.task with
      | none =>
        rw [step_skip (s := { s with ledger := { s.ledger with backlog } }) hb hs,
          Roster.allot_skip hs]
        obtain ⟨backlog', deferred, heq⟩ := ih
          { s with
            ledger := { s.ledger with backlog }
            deferred := s.deferred ++ [b.entry] }
          fuel hfuel htail hrest hnodup.2
        refine ⟨backlog', deferred, heq.trans ?_⟩
        simp only [Ledger.give_withBacklog]
      | some w =>
        rw [step_place (s := { s with ledger := { s.ledger with backlog } }) hb hq hs,
          Roster.allot_place hs]
        have htail' := Ledger.waiting_put_assignTo w.id now htail hne
        have hkept : ∀ c ∈ rest,
            ({ s.ledger with backlog }.put (b.assignTo w.id now)).find? c.id = some c ∧
              c.status = .queued := by
          intro c hc
          refine ⟨?_, (hrest c hc).2⟩
          rw [Ledger.find?_put_of_ne _ (b.assignTo w.id now) (hne c hc)]
          exact (hrest c hc).1
        obtain ⟨backlog', deferred, heq⟩ := ih
          { s with
            ledger := { s.ledger with backlog }.put (b.assignTo w.id now)
            roster := s.roster.put (w.take b.id)
            assignments := s.assignments ++ [b.assignment w timeout] }
          fuel hfuel htail' hkept hnodup.2
        refine ⟨backlog', deferred, heq.trans ?_⟩
        simp only [List.map_cons, List.append_assoc, List.singleton_append, Ledger.give_cons]
        congr 1
        exact Ledger.give_withBacklog _ (s.ledger.put (b.assignTo w.id now)) backlog backlog'

/-! ## The end of the loop -/

theorem backlog_step (s : Passing) (e : Entry) (now : Instant) (timeout : UInt64) :
    (s.step e now timeout).ledger.backlog = s.ledger.backlog := by
  have hbind : ∀ w, (s.bind e w now timeout).2.ledger.backlog = s.ledger.backlog := by
    intro w
    unfold bind
    split
    · rfl
    · split
      · rename_i hassign
        obtain ⟨-, -, -, -, rfl⟩ := Ledger.assign_eq_ok hassign
        rfl
      · split
        · rfl
        · rfl
  have hplace : (s.place e now timeout).2.ledger.backlog = s.ledger.backlog := by
    unfold place
    split
    · rfl
    · split
      · rfl
      · exact hbind _
  unfold step
  split
  · rename_i h; rw [h] at hplace; exact hplace
  · rename_i h; rw [h] at hplace; exact hplace
  · rename_i h; rw [h] at hplace; exact hplace

theorem run_of_size_eq_zero (h : s.ledger.backlog.size = 0) (fuel : Nat) :
    run now timeout fuel s = s := by
  cases hfree : s.roster.hasFreeSlot with
  | false => exact run_of_full hfree fuel
  | true =>
    cases fuel with
    | zero => rfl
    | succ fuel =>
      exact run_of_popQueued_none hfree (Ledger.popQueued_of_size_eq_zero h) fuel

/-- More steps than entries make no difference: the loop ends by itself. -/
theorem run_congr {fuel fuel' : Nat} (h : s.ledger.backlog.size ≤ fuel)
    (h' : s.ledger.backlog.size ≤ fuel') : run now timeout fuel s = run now timeout fuel' s := by
  induction fuel generalizing s fuel' with
  | zero =>
    have hsize := Nat.le_zero.1 h
    rw [run_of_size_eq_zero hsize, run_of_size_eq_zero hsize]
  | succ fuel ih =>
    cases fuel' with
    | zero =>
      have hsize := Nat.le_zero.1 h'
      rw [run_of_size_eq_zero hsize, run_of_size_eq_zero hsize]
    | succ fuel' =>
      cases hfree : s.roster.hasFreeSlot with
      | false => rw [run_of_full hfree, run_of_full hfree]
      | true =>
        cases hp : s.ledger.popQueued with
        | mk found l =>
          cases found with
          | none => rw [run_of_popQueued_none hfree hp, run_of_popQueued_none hfree hp]
          | some e =>
            rw [run_of_popQueued_some hfree hp, run_of_popQueued_some hfree hp]
            have hsize := Ledger.size_of_popQueued hp
            have hstep := backlog_step { s with ledger := l } e now timeout
            refine ih ?_ ?_
            · rw [hstep]
              exact Nat.le_of_lt_succ (Nat.lt_of_lt_of_le hsize h)
            · rw [hstep]
              exact Nat.le_of_lt_succ (Nat.lt_of_lt_of_le hsize h')

/-- For the entry that comes next there is no worker, or the selected one is known and has the slot,
and the build can be assigned. -/
def Unrefused (now : Instant) (s : Passing) : Prop :=
  ∀ e l, s.ledger.popQueued = (some e, l) → ∃ b, l.find? e.build = some b ∧
    (s.roster.select b.task = none ∨ ∃ w, s.roster.select b.task = some w ∧
      s.roster.find? w.id = some w ∧ (∃ r, s.roster.reserve w.id e.build = .ok r) ∧
      ∃ b' l', l.assign e.build w.id now = .ok (b', l'))

theorem Sound.unrefused (h : s.Sound given) (now : Instant) : s.Unrefused now := by
  intro e l hp
  obtain ⟨b, hb, hq, rfl⟩ := Ledger.of_popQueued_eq_some h.lists hp
  rw [← Ledger.find?_of_popQueued hp] at hb
  refine ⟨b, hb, ?_⟩
  cases hs : s.roster.select b.task with
  | none => exact .inl rfl
  | some w =>
    obtain ⟨hreserve, hassign⟩ := place_selected (s := { s with ledger := l }) now hb hq hs
    exact .inr ⟨w, rfl, (Roster.select_eq_some hs).1, ⟨_, hreserve⟩, _, _, hassign⟩

end Passing

/-! ## A whole pass -/

namespace Pool

variable {given : List BuildId} {p : Pool} {now : Instant}

/-- What the plain rule gives out if it goes through the queue of a pool. -/
def placements (p : Pool) : List (Build × Worker) := (p.roster.allot p.ledger.queue).1

theorem of_mem_placements {x : Build × Worker} (hx : x ∈ p.placements) :
    p.ledger.find? x.1.id = some x.1 ∧ x.1.status = .queued := by
  have hmem := (Roster.placed_sublist p.roster p.ledger.queue).mem (List.mem_map_of_mem hx)
  exact Ledger.mem_queue_iff.1 hmem

theorem nodup_placements (p : Pool) : (p.placements.map fun x => x.1.id).Nodup := by
  have hsub := (Roster.placed_sublist p.roster p.ledger.queue).map Build.id
  rw [List.map_map] at hsub
  exact p.ledger.nodup_queue_ids.sublist hsub

theorem pass_eq (h : p.Sound given) (now : Instant) :
    (p.pass now).1.assignments =
        p.placements.map (fun x => x.1.assignment x.2 p.config.buildTimeout) ∧
      ∃ backlog, (p.pass now).2 =
        { p with
          ledger := { Ledger.give now p.placements p.ledger with backlog }
          roster := (p.roster.allot p.ledger.queue).2 } := by
  have hwaiting := Ledger.waiting_eq_queue h.ledger.records h.ledger.lists
  have hfuel : p.ledger.queue.length ≤ p.ledger.backlog.size := by
    have hlen := List.length_filter_le (fun e => p.ledger.isQueued e.build) p.ledger.backlog.drain
    rw [← Ledger.waiting, hwaiting, List.length_map] at hlen
    rw [(Backlog.perm_drain _).length_eq, ← Backlog.size_eq_length] at hlen
    exact hlen
  obtain ⟨backlog, deferred, heq⟩ := Passing.run_eq now p.config.buildTimeout p.ledger.queue
    ⟨p.ledger, p.roster, [], []⟩ p.ledger.backlog.size hfuel hwaiting
    (fun b hb => Ledger.mem_queue_iff.1 hb) p.ledger.nodup_queue_ids
  have hback := Ledger.foldl_pushBack deferred
    { Ledger.give now p.placements p.ledger with backlog }
  unfold pass
  rw [heq]
  refine ⟨rfl, _, congrArg (fun l => { p with
    ledger := l
    roster := (p.roster.allot p.ledger.queue).2 }) hback⟩

theorem find?_pass_of_placed (h : p.Sound given) (now : Instant) {x : Build × Worker}
    (hx : x ∈ p.placements) :
    (p.pass now).2.ledger.find? x.1.id = some (x.1.assignTo x.2.id now) := by
  obtain ⟨-, backlog, heq⟩ := pass_eq h now
  rw [heq]
  exact Ledger.find?_give_of_mem p.ledger p.nodup_placements hx

theorem find?_pass_of_not_placed (h : p.Sound given) (now : Instant) {id : BuildId}
    (hid : ∀ x ∈ p.placements, x.1.id ≠ id) :
    (p.pass now).2.ledger.find? id = p.ledger.find? id := by
  obtain ⟨-, backlog, heq⟩ := pass_eq h now
  rw [heq]
  exact Ledger.find?_give_of_not_mem p.ledger hid

theorem roster_pass (h : p.Sound given) (now : Instant) :
    (p.pass now).2.roster = (p.roster.allot p.ledger.queue).2 := by
  obtain ⟨-, backlog, heq⟩ := pass_eq h now
  rw [heq]

/-- The builds that no worker got wait in the order in which they waited before. -/
theorem queue_pass (h : p.Sound given) (now : Instant) :
    (p.pass now).2.ledger.queue =
      p.ledger.queue.filter fun b => decide (∀ x ∈ p.placements, x.1.id ≠ b.id) := by
  refine Ledger.eq_of_ordered (Ledger.queue_ordered (sound_pass h now).ledger.records)
    ((Ledger.queue_ordered h.ledger.records).filter _) fun b => ?_
  rw [List.mem_filter, Ledger.mem_queue_iff, Ledger.mem_queue_iff, decide_eq_true_iff]
  by_cases hid : ∀ x ∈ p.placements, x.1.id ≠ b.id
  · rw [find?_pass_of_not_placed h now hid]
    exact ⟨fun hb => ⟨hb, hid⟩, And.left⟩
  · constructor
    · rintro ⟨hb, hq⟩
      refine absurd (fun x hx hxb => ?_) hid
      have hfind := find?_pass_of_placed h now hx
      rw [hxb, hb] at hfind
      cases hfind
      cases hq
    · exact fun hb => absurd hb.2 hid

theorem drainQueued_pass (h : p.Sound given) (now : Instant) :
    (p.pass now).2.ledger.drainQueued =
      p.ledger.drainQueued.filter fun e => decide (∀ x ∈ p.placements, x.1.id ≠ e.build) := by
  have hafter := (sound_pass h now).ledger
  rw [Ledger.drainQueued_eq_waiting, Ledger.drainQueued_eq_waiting,
    Ledger.waiting_eq_queue hafter.records hafter.lists,
    Ledger.waiting_eq_queue h.ledger.records h.ledger.lists, queue_pass h, List.filter_map]
  rfl

theorem queued_pass (h : p.Sound given) (now : Instant) :
    (p.pass now).1.queued = (p.pass now).2.ledger.drainQueued.length := by
  have hafter := (sound_pass h now).ledger
  rw [Ledger.drainQueued_eq_waiting, Ledger.waiting_eq_queue hafter.records hafter.lists,
    List.length_map, ← Ledger.queuedCount_eq]
  rfl

/-- Ledger and roster as a pass begins. -/
def passing (p : Pool) : Passing := ⟨p.ledger, p.roster, [], []⟩

/-- A pass at this time does what the plain rule does, changes nothing else, and comes to an end
with no worker refused. -/
structure FollowsRule (p : Pool) (now : Instant) : Prop where
  /-- The rule goes through all queued builds, in their order. -/
  queue_mem : ∀ b, b ∈ p.ledger.queue ↔ p.ledger.find? b.id = some b ∧ b.status = .queued
  queue_order : p.ledger.queue.Pairwise fun a b => a.entry.before b.entry = true
  assignments : (p.pass now).1.assignments =
    p.placements.map fun x => x.1.assignment x.2 p.config.buildTimeout
  placed : ∀ x ∈ p.placements, p.ledger.find? x.1.id = some x.1 ∧ x.1.status = .queued ∧
    (p.pass now).2.ledger.find? x.1.id = some (x.1.assignTo x.2.id now)
  others : ∀ id, (∀ x ∈ p.placements, x.1.id ≠ id) →
    (p.pass now).2.ledger.find? id = p.ledger.find? id
  holds : ∀ w id, (p.pass now).2.roster.Holds w id ↔
    p.roster.Holds w id ∨ ∃ x ∈ p.placements, x.2.id = w ∧ x.1.id = id
  unheld : ∀ x ∈ p.placements, ∀ w, ¬ p.roster.Holds w x.1.id
  roster : (p.pass now).2.roster = (p.roster.allot p.ledger.queue).2
  /-- Nothing but the slots of a worker changes, and that only if it was chosen. -/
  particulars : ∀ w, ((p.pass now).2.roster.find? w).map Worker.particulars =
    (p.roster.find? w).map Worker.particulars
  idle : ∀ w, (∀ x ∈ p.placements, x.2.id ≠ w) →
    (p.pass now).2.roster.find? w = p.roster.find? w
  ledger : (p.pass now).2.ledger = { p.ledger with
    builds := (p.pass now).2.ledger.builds, backlog := (p.pass now).2.ledger.backlog }
  rest : (p.pass now).2 = { p with
    ledger := (p.pass now).2.ledger, roster := (p.pass now).2.roster }
  remaining : (p.pass now).2.ledger.drainQueued =
    p.ledger.drainQueued.filter fun e => decide (∀ x ∈ p.placements, x.1.id ≠ e.build)
  queued : (p.pass now).1.queued = (p.pass now).2.ledger.drainQueued.length
  ends : ∀ fuel, p.ledger.backlog.size ≤ fuel →
    Passing.run now p.config.buildTimeout fuel p.passing =
      Passing.run now p.config.buildTimeout p.ledger.backlog.size p.passing
  unrefused : ∀ fuel, (Passing.run now p.config.buildTimeout fuel p.passing).Unrefused now

theorem Sound.followsRule (h : p.Sound given) (now : Instant) : p.FollowsRule now where
  queue_mem b := Ledger.mem_queue_iff
  queue_order := Ledger.queue_ordered h.ledger.records
  assignments := (pass_eq h now).1
  placed x hx := ⟨(of_mem_placements hx).1, (of_mem_placements hx).2, find?_pass_of_placed h now hx⟩
  others id hid := find?_pass_of_not_placed h now hid
  holds w id := by
    rw [roster_pass h]
    exact Roster.holds_allot p.roster p.ledger.queue
  unheld x hx w hheld := by
    obtain ⟨hb, hq⟩ := of_mem_placements hx
    obtain ⟨b, hb', hw⟩ := (h.slots w x.1.id).1 hheld
    rw [hb] at hb'
    cases hb'
    exact Build.not_heldBy_of_queued hq w hw
  roster := roster_pass h now
  particulars w := by
    rw [roster_pass h]
    exact Roster.particulars_allot p.roster p.ledger.queue w
  idle w hw := by
    rw [roster_pass h]
    exact Roster.find?_allot_of_unplaced p.roster p.ledger.queue hw
  ledger := by
    obtain ⟨-, backlog, heq⟩ := pass_eq h now
    rw [heq, Ledger.give_eq]
  rest := rfl
  remaining := drainQueued_pass h now
  queued := queued_pass h now
  ends fuel hfuel := Passing.run_congr hfuel (Nat.le_refl _)
  unrefused fuel := by
    have hstart : p.passing.Sound given :=
      ⟨h.ledger.records, h.ledger.lists, h.roster, h.slots⟩
    exact (Passing.sound_run now p.config.buildTimeout hstart fuel).unrefused now

end Pool

end BuildPool
