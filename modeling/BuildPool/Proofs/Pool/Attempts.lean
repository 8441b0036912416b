import BuildPool.Proofs.Pool.Lifecycle

/-!
# Attempts

Each time a build is handed out its attempt gets the next number. A delivery is answered for one
attempt, so an answer that comes late finds that the build does not wait for it any more, even if
the build is with the same worker again.
-/

namespace BuildPool

open BuildPool.Time Ledger

/-! ## Assignments that were handed out -/

/-- The attempts at one build, the first one in front. -/
def attemptsAt (log : List Assignment) (id : BuildId) : List Nat :=
  (log.filter fun a => decide (a.build = id)).map Assignment.attempt

section Logs

variable {log more : List Assignment} {id : BuildId} {a : Assignment}

theorem attemptsAt_cons (a : Assignment) (log : List Assignment) (id : BuildId) :
    attemptsAt (a :: log) id =
      if a.build = id then a.attempt :: attemptsAt log id else attemptsAt log id := by
  unfold attemptsAt
  by_cases h : a.build = id
  · simp [h]
  · simp [h]

theorem attemptsAt_append (log more : List Assignment) (id : BuildId) :
    attemptsAt (log ++ more) id = attemptsAt log id ++ attemptsAt more id := by
  rw [attemptsAt, List.filter_append, List.map_append]
  rfl

theorem attemptsAt_eq_nil (h : ∀ a ∈ log, a.build ≠ id) : attemptsAt log id = [] := by
  rw [attemptsAt, List.map_eq_nil_iff, List.filter_eq_nil_iff]
  intro a ha
  simpa using h a ha

theorem mem_attemptsAt (h : a ∈ log) : a.attempt ∈ attemptsAt log a.build :=
  List.mem_map_of_mem (List.mem_filter.2 ⟨h, decide_eq_true rfl⟩)

/-- If no build has an attempt twice, then no attempt at a build is there twice. -/
theorem nodup_of_attemptsAt (h : ∀ id, (attemptsAt log id).Nodup) :
    (log.map fun a => (a.build, a.attempt)).Nodup := by
  induction log with
  | nil => exact List.nodup_nil
  | cons a rest ih =>
    have hrest : ∀ id, (attemptsAt rest id).Nodup := fun id =>
      (h id).sublist ((List.sublist_cons_self a rest).filter _ |>.map _)
    refine List.nodup_cons.2 ⟨fun hmem => ?_, ih hrest⟩
    obtain ⟨x, hx, heq⟩ := List.mem_map.1 hmem
    obtain ⟨hbuild, hattempt⟩ := Prod.mk.inj heq
    have hfirst := h a.build
    rw [attemptsAt_cons, if_pos rfl, List.nodup_cons] at hfirst
    exact hfirst.1 (hattempt ▸ hbuild ▸ mem_attemptsAt hx)

theorem attemptsAt_placed {placed : List (Build × Worker)} {x : Build × Worker}
    (hnodup : (placed.map fun x => x.1.id).Nodup) (hx : x ∈ placed) (timeout : UInt64) :
    attemptsAt (placed.map fun x => x.1.assignment x.2 timeout) x.1.id = [x.1.attempt + 1] := by
  induction placed with
  | nil => cases hx
  | cons y rest ih =>
    rw [List.map_cons, List.nodup_cons] at hnodup
    rw [List.map_cons, attemptsAt_cons]
    rcases List.mem_cons.1 hx with rfl | hx
    · have hrest : attemptsAt (rest.map fun x => x.1.assignment x.2 timeout) x.1.id = [] := by
        refine attemptsAt_eq_nil fun a ha heq => hnodup.1 ?_
        obtain ⟨z, hz, rfl⟩ := List.mem_map.1 ha
        exact List.mem_map.2 ⟨z, hz, heq⟩
      rw [hrest]
      exact if_pos rfl
    · have hne : y.1.id ≠ x.1.id := fun heq => hnodup.1 (List.mem_map.2 ⟨x, hx, heq.symm⟩)
      rw [ih hnodup.2 hx]
      exact if_neg hne

end Logs

namespace Course

variable {c d : Course} {op : Op} {ops : List Op} {log : List Assignment} {id : BuildId}
  {b b' : Build} {a : Assignment}

def handedBy (c : Course) : Op → List Assignment
  | .pass now => (c.pool.pass now).1.assignments
  | _ => []

/-- The assignments that operations hand out, one operation after the other. -/
def handed (c : Course) (ops : List Op) : List Assignment := c.along handedBy ops

theorem Run.handed_snoc (hrun : Run c ops d) (op : Op) :
    c.handed (ops ++ [op]) = c.handed ops ++ d.handedBy op :=
  hrun.along_snoc handedBy op

/-! ## One operation -/

/-- Everything that was handed out, with the attempts at each build counted. -/
structure Logs (log : List Assignment) (c : Course) : Prop where
  current : ∀ id b, c.pool.ledger.find? id = some b →
    attemptsAt log id = List.range' 1 b.attempt
  counted : ∀ id, ∃ n, attemptsAt log id = List.range' 1 n
  known : ∀ a ∈ log, a.build ∈ c.given
  outstanding : c.outstanding.Sublist log

theorem logs_start (config : Config) (caching : Bool) : Logs [] (start config caching) where
  current _ _ h := by cases h
  counted _ := ⟨0, rfl⟩
  known _ h := by cases h
  outstanding := List.Sublist.refl []

theorem outstanding_enter {α : Type} (c : Course) (result : Except Refusal (α × Pool)) :
    (c.enter result).outstanding = c.outstanding := by
  unfold enter
  split <;> rfl

theorem outstanding_after (c : Course) (op : Op) :
    (c.after op).outstanding.Sublist (c.outstanding ++ c.handedBy op) := by
  have hsame : c.outstanding.Sublist (c.outstanding ++ []) := List.sublist_append_left _ _
  cases op with
  | submit now r id =>
    simp only [after]
    split
    · exact hsame
    · exact hsame
  | cancel | progress | complete | register | heartbeat =>
    simp only [after, outstanding_enter]
    exact hsame
  | pass now => exact List.Sublist.refl _
  | delivered now place | undelivered place =>
    have herase := (List.eraseIdx_sublist c.outstanding place).trans hsame
    simp only [after]
    split
    · exact herase
    · exact hsame
  | satisfy | wake | scan | takeWakeUp | takeSaveRequest | restart => exact hsame

theorem attempt_after (h : c.Sound) (hadmits : c.Admits op) (hop : ∀ now, op ≠ .pass now)
    (hb : c.pool.ledger.find? id = some b) (hb' : (c.after op).pool.ledger.find? id = some b') :
    b'.attempt = b.attempt := by
  rcases makes_of_find? h hadmits hb hb' with rfl | ⟨-, k, maxRetries, hcause, hchange⟩
  · rfl
  · rw [hchange.attempt_eq, if_neg]
    rintro rfl
    cases op with
    | pass now => exact hop now rfl
    | _ => cases hcause

theorem Logs.pass (h : c.Sound) (hlog : Logs log c) (now : Instant) :
    Logs (log ++ c.handedBy (.pass now)) (c.after (.pass now)) := by
  have hhanded : c.handedBy (.pass now) =
      c.pool.placements.map fun x => x.1.assignment x.2 c.pool.config.buildTimeout :=
    (Pool.pass_eq h.pool now).1
  have hplaced : ∀ x ∈ c.pool.placements,
      attemptsAt (log ++ c.handedBy (.pass now)) x.1.id = List.range' 1 (x.1.attempt + 1) := by
    intro x hx
    rw [attemptsAt_append, hlog.current _ _ (Pool.of_mem_placements hx).1, hhanded,
      attemptsAt_placed c.pool.nodup_placements hx, List.range'_1_concat, Nat.add_comm 1]
  have hothers : ∀ id, (∀ x ∈ c.pool.placements, x.1.id ≠ id) →
      attemptsAt (log ++ c.handedBy (.pass now)) id = attemptsAt log id := by
    intro id hid
    have hnone : attemptsAt (c.handedBy (.pass now)) id = [] := by
      refine attemptsAt_eq_nil fun a ha => ?_
      rw [hhanded] at ha
      obtain ⟨x, hx, rfl⟩ := List.mem_map.1 ha
      exact hid x hx
    rw [attemptsAt_append, hnone, List.append_nil]
  constructor
  case current =>
    intro id b hb
    change (c.pool.pass now).2.ledger.find? id = some b at hb
    by_cases hid : ∃ x ∈ c.pool.placements, x.1.id = id
    · obtain ⟨x, hx, rfl⟩ := hid
      rw [Pool.find?_pass_of_placed h.pool now hx] at hb
      cases hb
      exact hplaced x hx
    · have hne : ∀ x ∈ c.pool.placements, x.1.id ≠ id := fun x hx heq => hid ⟨x, hx, heq⟩
      rw [Pool.find?_pass_of_not_placed h.pool now hne] at hb
      rw [hothers id hne]
      exact hlog.current id b hb
  case counted =>
    intro id
    by_cases hid : ∃ x ∈ c.pool.placements, x.1.id = id
    · obtain ⟨x, hx, rfl⟩ := hid
      exact ⟨_, hplaced x hx⟩
    · rw [hothers id fun x hx heq => hid ⟨x, hx, heq⟩]
      exact hlog.counted id
  case known =>
    intro a ha
    rcases List.mem_append.1 ha with hold | hnew
    · exact hlog.known a hold
    · rw [hhanded] at hnew
      obtain ⟨x, hx, rfl⟩ := List.mem_map.1 hnew
      exact (h.pool.ledger.records.numbered _ _ (Pool.of_mem_placements hx).1).mem
  case outstanding => exact hlog.outstanding.append_right _

theorem Logs.after (h : c.Sound) (hadmits : c.Admits op) (hlog : Logs log c) :
    Logs (log ++ c.handedBy op) (c.after op) := by
  by_cases hpass : ∃ now, op = .pass now
  · obtain ⟨now, rfl⟩ := hpass
    exact hlog.pass h now
  · have hop : ∀ now, op ≠ .pass now := fun now heq => hpass ⟨now, heq⟩
    have hnothing : c.handedBy op = [] := by
      cases op with
      | pass now => exact absurd rfl (hop now)
      | _ => rfl
    have houtstanding := outstanding_after c op
    rw [hnothing, List.append_nil] at houtstanding
    rw [hnothing, List.append_nil]
    constructor
    case current =>
      intro id b' hb'
      cases hb : c.pool.ledger.find? id with
      | some b =>
        rw [attempt_after h hadmits hop hb hb']
        exact hlog.current id b hb
      | none =>
        -- A build that was just submitted was never handed out.
        obtain ⟨now, r, rfl, rfl⟩ := eq_submit_of_new h hadmits hb hb'
        exact attemptsAt_eq_nil fun a ha heq => hadmits (heq ▸ hlog.known a ha)
    case counted => exact hlog.counted
    case known => exact fun a ha => (given_after c op).subset (hlog.known a ha)
    case outstanding => exact houtstanding.trans hlog.outstanding

/-! ## Every run -/

theorem Run.logs {config : Config} {caching : Bool} (hrun : Run (start config caching) ops d) :
    Logs ((start config caching).handed ops) d := by
  induction hrun with
  | nil => exact logs_start config caching
  | snoc hrun hadmits ih =>
    rw [hrun.handed_snoc]
    exact ih.after (hrun.sound (sound_start config caching)) hadmits

theorem Run.attempt_le (h : c.Sound) (hrun : Run c ops d) (hb : c.pool.ledger.find? id = some b)
    (hb' : d.pool.ledger.find? id = some b') : b.attempt ≤ b'.attempt := by
  have hid := (h.pool.ledger.records.numbered id b hb).mem
  induction hrun generalizing b' with
  | nil =>
    rw [hb] at hb'
    cases hb'
    exact Nat.le_refl _
  | snoc hrun hadmits ih =>
    have hsound := hrun.sound h
    obtain ⟨x, hx, rfl | hmakes⟩ := (changes_after hsound hadmits).former id
      (hrun.given_prefix.subset hid) b' hb'
    · exact ih hx
    · obtain ⟨k, maxRetries, hchange⟩ := hmakes.change
      refine Nat.le_trans (ih hx) ?_
      rw [hchange.attempt_eq]
      split
      · exact Nat.le_succ _
      · exact Nat.le_refl _

end Course

/-! ## Answers to deliveries -/

namespace Pool

variable {p : Pool} {a : Assignment} {b : Build}

/-- The build of an assignment is assigned to its worker, for the attempt that was handed out. -/
def Awaits (p : Pool) (a : Assignment) : Prop :=
  ∃ b, p.ledger.find? a.build = some b ∧ b.status = .assigned ∧ b.worker = some a.worker ∧
    b.attempt = a.attempt

theorem awaits_iff : p.Awaits a ↔
    ∃ b, p.ledger.find? a.build = some b ∧ b.awaits a.worker a.attempt = true := by
  constructor
  · rintro ⟨b, hb, hs, hw, hn⟩
    refine ⟨b, hb, Build.awaits_iff.2 ⟨hs, hn, Build.heldBy_iff.2 ⟨?_, hw⟩⟩⟩
    rw [hs]
    rfl
  · rintro ⟨b, hb, ha⟩
    obtain ⟨hs, hn, hheld⟩ := Build.awaits_iff.1 ha
    exact ⟨b, hb, hs, (Build.heldBy_iff.1 hheld).2, hn⟩

theorem delivered_of_not_awaits (h : ¬ p.Awaits a) (now : Instant) : p.delivered now a = p := by
  unfold delivered
  split
  · rfl
  · rename_i l hl
    obtain ⟨b, hb, ha, -⟩ := acknowledge?_eq_some hl
    exact absurd (awaits_iff.2 ⟨b, hb, ha⟩) h

theorem undelivered_of_not_awaits (h : ¬ p.Awaits a) : p.undelivered a = p := by
  unfold undelivered
  split
  · rfl
  · rename_i l hl
    obtain ⟨b, hb, ha, -⟩ := rollback?_eq_some hl
    exact absurd (awaits_iff.2 ⟨b, hb, ha⟩) h

theorem not_awaits_of_attempt_ne (hb : p.ledger.find? a.build = some b)
    (hne : b.attempt ≠ a.attempt) : ¬ p.Awaits a := by
  rintro ⟨x, hx, -, -, hn⟩
  rw [hb] at hx
  cases hx
  exact hne hn

theorem tables_delivered (hb : p.ledger.find? a.build = some b)
    (ha : b.awaits a.worker a.attempt = true) (now : Instant) :
    (p.delivered now a).ledger = p.ledger.put b.start ∧
      (p.delivered now a).roster = p.roster := by
  have hl : p.ledger.acknowledge? a.build a.worker a.attempt = some (p.ledger.put b.start) := by
    rw [acknowledge?, hb]
    exact if_pos ha
  rw [delivered, hl]
  exact ⟨rfl, rfl⟩

theorem tables_undelivered (hb : p.ledger.find? a.build = some b)
    (ha : b.awaits a.worker a.attempt = true) :
    (p.undelivered a).ledger = (p.ledger.put b.requeue).enqueue b.requeue ∧
      ∀ w id, (p.undelivered a).roster.Holds w id ↔
        p.roster.Holds w id ∧ ¬ (w = a.worker ∧ id = a.build) := by
  have hl : p.ledger.rollback? a.build a.worker a.attempt =
      some ((p.ledger.put b.requeue).enqueue b.requeue) := by
    rw [rollback?, hb]
    exact if_pos ha
  rw [undelivered, hl]
  exact ⟨ledger_free _ _ _, fun w id => holds_free _ a.worker a.build⟩

end Pool

/-! ## All of it -/

namespace Course

variable {c d : Course} {op : Op} {ops : List Op} {log : List Assignment} {a : Assignment}

/-- An answer to this delivery, now or later, can change something. -/
def CanAct (c : Course) (a : Assignment) : Prop :=
  ∃ ops d, Run c ops d ∧
    ((∃ now, d.pool.delivered now a ≠ d.pool) ∨ d.pool.undelivered a ≠ d.pool)

theorem CanAct.awaits (h : c.CanAct a) : ∃ ops d, Run c ops d ∧ d.pool.Awaits a := by
  obtain ⟨ops, d, hrun, heffect⟩ := h
  refine ⟨ops, d, hrun, Classical.byContradiction fun hnot => ?_⟩
  rcases heffect with ⟨now, hne⟩ | hne
  · exact hne (Pool.delivered_of_not_awaits hnot now)
  · exact hne (Pool.undelivered_of_not_awaits hnot)

/-- Only the last attempt that was handed out can still act: the build does not go back to an
earlier one. -/
theorem Logs.attempt_of_canAct (h : c.Sound) (hlog : Logs log c) (ha : a ∈ log)
    (hact : c.CanAct a) :
    ∃ b, c.pool.ledger.find? a.build = some b ∧ b.attempt = a.attempt := by
  obtain ⟨ops, d, hrun, b', hb', -, -, hn⟩ := hact.awaits
  obtain ⟨b, hb, -⟩ := hrun.evolves h a.build (hlog.known a ha) b' hb'
  have hle := hrun.attempt_le h hb hb'
  have hmem := mem_attemptsAt ha
  rw [hlog.current _ _ hb, List.mem_range'_1] at hmem
  exact ⟨b, hb, by omega⟩

theorem Logs.nodup (hlog : Logs log c) : (log.map fun a => (a.build, a.attempt)).Nodup := by
  refine nodup_of_attemptsAt fun id => ?_
  obtain ⟨n, hn⟩ := hlog.counted id
  rw [hn]
  exact List.nodup_range' 1

/-- What was handed out in the course of a pool, and what the answers to it can do. -/
structure HandsOut (log : List Assignment) (c : Course) : Prop where
  /-- The attempts at a build are 1, 2, 3 and so on. -/
  counted : ∀ id, attemptsAt log id = List.range' 1 (attemptsAt log id).length
  once : (log.map fun a => (a.build, a.attempt)).Nodup
  outstanding : c.outstanding.Sublist log
  /-- Of the deliveries for one build that were not answered yet, one at most can still act. -/
  alone : ∀ (i j : Nat) a a', c.outstanding[i]? = some a → c.outstanding[j]? = some a' →
    a.build = a'.build → c.CanAct a → c.CanAct a' → i = j
  idle : ∀ a, ¬ c.pool.Awaits a →
    (∀ now, c.pool.delivered now a = c.pool) ∧ c.pool.undelivered a = c.pool
  /-- Neither answer to another attempt has any effect, with whichever worker the build is. -/
  late : ∀ a b, c.pool.ledger.find? a.build = some b → b.attempt ≠ a.attempt →
    (∀ now, c.pool.delivered now a = c.pool) ∧ c.pool.undelivered a = c.pool
  started : ∀ a b, c.pool.ledger.find? a.build = some b → b.awaits a.worker a.attempt = true →
    ∀ now, (c.pool.delivered now a).ledger = c.pool.ledger.put b.start ∧
      (c.pool.delivered now a).roster = c.pool.roster
  returned : ∀ a b, c.pool.ledger.find? a.build = some b → b.awaits a.worker a.attempt = true →
    (c.pool.undelivered a).ledger = (c.pool.ledger.put b.requeue).enqueue b.requeue ∧
      ∀ w id, (c.pool.undelivered a).roster.Holds w id ↔
        c.pool.roster.Holds w id ∧ ¬ (w = a.worker ∧ id = a.build)

theorem Logs.handsOut (h : c.Sound) (hlog : Logs log c) : HandsOut log c := by
  have hidle : ∀ a, ¬ c.pool.Awaits a →
      (∀ now, c.pool.delivered now a = c.pool) ∧ c.pool.undelivered a = c.pool := fun a hnot =>
    ⟨Pool.delivered_of_not_awaits hnot, Pool.undelivered_of_not_awaits hnot⟩
  constructor
  case counted =>
    intro id
    obtain ⟨n, hn⟩ := hlog.counted id
    rw [hn, List.length_range']
  case once => exact hlog.nodup
  case outstanding => exact hlog.outstanding
  case alone =>
    intro i j a a' ha ha' hbuild hact hact'
    obtain ⟨b, hb, hn⟩ := hlog.attempt_of_canAct h
      (hlog.outstanding.mem (List.mem_of_getElem? ha)) hact
    obtain ⟨b', hb', hn'⟩ := hlog.attempt_of_canAct h
      (hlog.outstanding.mem (List.mem_of_getElem? ha')) hact'
    rw [← hbuild, hb] at hb'
    cases hb'
    -- One build and one attempt, and no two places have the same.
    have hnodup := hlog.nodup.sublist (hlog.outstanding.map _)
    have hi := (List.getElem?_eq_some_iff.1 ha).1
    refine (List.getElem?_inj (by rw [List.length_map]; exact hi) hnodup).1 ?_
    rw [List.getElem?_map, List.getElem?_map, ha, ha', Option.map_some, Option.map_some, hbuild,
      ← hn, hn']
  case idle => exact hidle
  case late => exact fun a b hb hne => hidle a (Pool.not_awaits_of_attempt_ne hb hne)
  case started => exact fun a b hb ha now => Pool.tables_delivered hb ha now
  case returned => exact fun a b hb ha => Pool.tables_undelivered hb ha

/-- In every run from the start no attempt is handed out twice, and answers act for the attempt that
they were given for, or not at all. -/
theorem attempts_handed_out {config : Config} {caching : Bool}
    (hrun : Run (start config caching) ops d) :
    HandsOut ((start config caching).handed ops) d :=
  hrun.logs.handsOut (hrun.sound (sound_start config caching))

/-- A build is handed out, its worker falls silent and comes back, and gets the build again. -/
def lostAndBack : List Op :=
  [.submit ⟨0, 0⟩ { project := "p", task := "t" } ⟨"a"⟩,
    .register ⟨1, 0⟩ { id := ⟨"w"⟩, address := "x", capacity := 1 },
    .pass ⟨2, 0⟩,
    .scan ⟨100, 0⟩ ⟨100, 0⟩,
    .heartbeat ⟨101, 0⟩ ⟨"w"⟩ {},
    .pass ⟨102, 0⟩]

theorem run_lostAndBack :
    Run (start {} false) lostAndBack (lostAndBack.foldl Course.after (start {} false)) :=
  run_foldl ⟨List.not_mem_nil, trivial, trivial, trivial, trivial, trivial, trivial⟩

/-- Both deliveries are still to be answered, and they are for the same worker. -/
theorem attempts_handed_out_lostAndBack :
    (lostAndBack.foldl Course.after (start {} false)).outstanding.map
        (fun a => (a.build, a.worker, a.attempt)) =
      [(⟨"a"⟩, ⟨"w"⟩, 1), (⟨"a"⟩, ⟨"w"⟩, 2)] ∧
    HandsOut ((start {} false).handed lostAndBack)
      (lostAndBack.foldl Course.after (start {} false)) :=
  ⟨rfl, attempts_handed_out run_lostAndBack⟩

end Course

end BuildPool
