import BuildPool.Proofs.Pool.Sound
import BuildPool.Proofs.Roster.Allotment

/-!
# Passes

A pass takes entries off the backlog, with entries of builds that left the queue among them, and
sets some aside. Each step keeps ledger and roster in agreement, and so does the whole pass.
-/

namespace BuildPool

open BuildPool.Time

/-- What a worker is handed for a build. -/
def Build.assignment (b : Build) (w : Worker) (timeout : UInt64) : Assignment :=
  ⟨b.id, w.id, b.attempt + 1, w.info.address, b.toTask timeout⟩

namespace Ledger

variable {given : List BuildId} {l l' : Ledger} {b : Build} {e : Entry} {id : BuildId}
  {now : Instant} {entries : List Entry}

/-! ## Taking one entry off -/

theorem eq_of_popQueued {found : Option Entry} (hp : l.popQueued = (found, l')) :
    l' = { l with backlog := l'.backlog } := by
  have hledger : l' = l.popQueued.2 := by rw [hp]
  rw [hledger]
  rfl

theorem find?_of_popQueued {found : Option Entry} (hp : l.popQueued = (found, l'))
    (id : BuildId) : l'.find? id = l.find? id := by
  rw [eq_of_popQueued hp]
  rfl

/-- The entry that is taken off stands for a queued build. -/
theorem of_popQueued_eq_some (h : Lists given l (entries ++ l.backlog.toList))
    (hp : l.popQueued = (some e, l')) :
    ∃ b, l.find? b.id = some b ∧ b.status = .queued ∧ e = b.entry := by
  have hhead : l.waiting.head? = some e := by rw [← popQueued_found, hp]
  obtain ⟨hdrain, hq⟩ := List.mem_filter.1 (List.mem_of_head? hhead)
  have hmem : e ∈ entries ++ l.backlog.toList :=
    List.mem_append_right _ ((Backlog.perm_drain l.backlog).mem_iff.1 hdrain)
  obtain ⟨b, hb, hqueued⟩ := (Option.any_eq_true ..).1 hq
  have hqueued : b.status = .queued := by simpa using hqueued
  obtain rfl := h.eq_entry hmem hb hqueued
  exact ⟨b, hb, hqueued, rfl⟩

/-- What is taken off stands in front of the others. -/
theorem lists_of_popQueued {found : Option Entry}
    (h : Lists given l (entries ++ l.backlog.toList)) (hp : l.popQueued = (found, l')) :
    Lists given l' (found.toList ++ (entries ++ l'.backlog.toList)) := by
  obtain ⟨dead, hperm, hdead⟩ := popQueued_perm l
  rw [hp] at hperm
  have hall : (entries ++ l.backlog.toList).Perm
      (dead ++ (found.toList ++ (entries ++ l'.backlog.toList))) := by
    refine (hperm.append_left entries).trans ?_
    refine (List.perm_append_comm_assoc _ _ _).trans ?_
    exact (List.perm_append_comm_assoc _ _ _).append_left dead
  exact ((h.perm hall).drop_all hdead).of_find?_eq (find?_of_popQueued hp)

/-! ## Giving builds to workers -/

theorem assign_of_queued {w : WorkerId} (hb : l.find? b.id = some b) (hq : b.status = .queued) :
    l.assign b.id w now = .ok (b.assignTo w now, l.put (b.assignTo w now)) := by
  simp only [assign, require, hb, bind, Except.bind, hq, if_true, pure, Except.pure]

theorem heldBy_put_assignTo {w x : WorkerId} (hb : l.find? b.id = some b)
    (hq : b.status = .queued) :
    (l.put (b.assignTo w now)).HeldBy id x ↔ l.HeldBy id x ∨ (x = w ∧ id = b.id) := by
  rw [heldBy_put]
  have hself : (b.assignTo w now).heldBy x = true ↔ x = w := by
    rw [Build.heldBy_iff]
    simp [Build.assignTo, BuildStatus.holdsWorker, eq_comm]
  rw [hself]
  change (id = b.id ∧ x = w) ∨ (id ≠ b.id ∧ l.HeldBy id x) ↔ _
  by_cases hid : id = b.id
  · subst hid
    have hfree : ¬ l.HeldBy b.id x := by
      rintro ⟨c, hc, hheld⟩
      rw [hb] at hc
      cases hc
      exact Build.not_heldBy_of_queued hq x hheld
    simp [hfree]
  · simp [hid]

end Ledger

/-! ## One step -/

namespace Passing

variable {given : List BuildId} {s : Passing} {l : Ledger} {b : Build} {w : Worker} {e : Entry}
  {now : Instant} {timeout : UInt64}

theorem step_skip (hb : s.ledger.find? b.id = some b) (hs : s.roster.select b.task = none) :
    s.step b.entry now timeout = { s with deferred := s.deferred ++ [b.entry] } := by
  have hplace : s.place b.entry now timeout = (.deferred, s) := by
    unfold place
    rw [show b.entry.build = b.id from rfl, hb]
    simp only
    rw [hs]
  rw [step, hplace]

/-- Neither the roster nor the ledger refuses a selected worker. -/
theorem place_selected (now : Instant) (hb : s.ledger.find? b.id = some b)
    (hq : b.status = .queued) (hs : s.roster.select b.task = some w) :
    s.roster.reserve w.id b.id = .ok (s.roster.put (w.take b.id)) ∧
      s.ledger.assign b.id w.id now =
        .ok (b.assignTo w.id now, s.ledger.put (b.assignTo w.id now)) := by
  obtain ⟨hw, hfree, -⟩ := Roster.select_eq_some hs
  exact ⟨Roster.reserve_of_find? hw hfree, Ledger.assign_of_queued hb hq⟩

theorem step_place (hb : s.ledger.find? b.id = some b) (hq : b.status = .queued)
    (hs : s.roster.select b.task = some w) :
    s.step b.entry now timeout =
      { s with
        ledger := s.ledger.put (b.assignTo w.id now)
        roster := s.roster.put (w.take b.id)
        assignments := s.assignments ++ [b.assignment w timeout] } := by
  obtain ⟨hreserve, hassign⟩ := place_selected now hb hq hs
  have hplace : s.place b.entry now timeout = (.assigned (b.assignment w timeout),
      { s with
        ledger := s.ledger.put (b.assignTo w.id now)
        roster := s.roster.put (w.take b.id) }) := by
    unfold place
    rw [show b.entry.build = b.id from rfl, hb]
    simp only
    rw [hs]
    simp only
    unfold bind
    rw [show b.entry.build = b.id from rfl, hreserve]
    simp only
    rw [hassign]
    rfl
  rw [step, hplace]

/-! ## Soundness -/

structure Sound (given : List BuildId) (s : Passing) : Prop where
  records : Ledger.Records given s.ledger
  lists : Ledger.Lists given s.ledger (s.deferred ++ s.ledger.backlog.toList)
  roster : s.roster.Sound
  slots : Matched s.ledger s.roster

theorem sound_of_popQueued {found : Option Entry} (h : s.Sound given)
    (hp : s.ledger.popQueued = (found, l)) :
    Ledger.Records given l ∧ Matched l s.roster := by
  rw [Ledger.eq_of_popQueued hp]
  exact ⟨h.records.withQueue _ _, h.slots⟩

theorem sound_step (h : s.Sound given) (hp : s.ledger.popQueued = (some e, l)) :
    ({ s with ledger := l }.step e now timeout).Sound given := by
  obtain ⟨b, hb, hq, rfl⟩ := Ledger.of_popQueued_eq_some h.lists hp
  have hlists := Ledger.lists_of_popQueued h.lists hp
  rw [Option.toList_some, List.singleton_append] at hlists
  obtain ⟨hrecords, hslots⟩ := sound_of_popQueued h hp
  rw [← Ledger.find?_of_popQueued hp] at hb
  cases hs : s.roster.select b.task with
  | none =>
    rw [step_skip (s := { s with ledger := l }) hb hs]
    refine ⟨hrecords, hlists.perm ?_, h.roster, hslots⟩
    rw [List.append_assoc]
    exact List.perm_middle.symm
  | some w =>
    rw [step_place (s := { s with ledger := l }) hb hq hs]
    obtain ⟨hw, hfree, -⟩ := Roster.select_eq_some hs
    have hopen := Build.isTerminal_eq_false_of_queued hq
    constructor
    · change Ledger.Records given (l.put (b.assignTo w.id now))
      exact hrecords.put hb rfl hopen rfl rfl
    · exact hlists.assign hb hq rfl (by simp [Build.assignTo])
    · exact Roster.sound_put h.roster (Worker.sound_take hfree b.id)
    · intro x id
      refine (Roster.holds_reserve (Roster.reserve_of_find? hw hfree)).trans ?_
      rw [hslots x id]
      exact (Ledger.heldBy_put_assignTo hb hq).symm

theorem sound_run (now : Instant) (timeout : UInt64) (h : s.Sound given) (fuel : Nat) :
    (run now timeout fuel s).Sound given := by
  induction fuel generalizing s with
  | zero => exact h
  | succ fuel ih =>
    unfold run
    split
    · split
      · rename_i l hp
        -- Nothing is queued, and the entries that were dropped stood for nothing.
        obtain ⟨hrecords, hslots⟩ := sound_of_popQueued h hp
        exact ⟨hrecords, Ledger.lists_of_popQueued h.lists hp, h.roster, hslots⟩
      · rename_i e l hp
        exact ih (sound_step h hp)
    · exact h

end Passing

theorem Ledger.perm_foldl_pushBack (entries : List Entry) (l : Ledger) :
    (entries.foldl pushBack l).backlog.toList.Perm (entries ++ l.backlog.toList) := by
  induction entries generalizing l with
  | nil => exact .refl _
  | cons e rest ih =>
    refine (ih (l.pushBack e)).trans ?_
    refine ((Backlog.perm_push l.backlog e).append_left rest).trans ?_
    exact List.perm_middle

theorem Ledger.foldl_pushBack (entries : List Entry) (l : Ledger) :
    entries.foldl pushBack l = { l with backlog := (entries.foldl pushBack l).backlog } := by
  induction entries generalizing l with
  | nil => rfl
  | cons e rest ih => exact ih (l.pushBack e)

namespace Pool

variable {given : List BuildId} {p : Pool}

theorem sound_pass (h : p.Sound given) (now : Instant) : (p.pass now).2.Sound given := by
  have hstart : Passing.Sound given ⟨p.ledger, p.roster, [], []⟩ :=
    ⟨h.ledger.records, h.ledger.lists, h.roster, h.slots⟩
  have hrun := Passing.sound_run now p.config.buildTimeout hstart p.ledger.backlog.size
  unfold pass
  generalize Passing.run now p.config.buildTimeout p.ledger.backlog.size
    ⟨p.ledger, p.roster, [], []⟩ = s at hrun
  have hlists := hrun.lists.perm (Ledger.perm_foldl_pushBack s.deferred s.ledger).symm
  have hledger := Ledger.foldl_pushBack s.deferred s.ledger
  refine ⟨⟨?_, ?_⟩, hrun.roster, ?_⟩
  · simp only
    rw [hledger]
    exact hrun.records.withQueue _ _
  · exact hlists.of_find?_eq fun id => by simp only; rw [hledger]; rfl
  · simp only
    rw [hledger]
    exact hrun.slots

end Pool

end BuildPool
