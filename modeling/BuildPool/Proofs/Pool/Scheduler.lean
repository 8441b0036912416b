import BuildPool.Proofs.Pool.Wakeups

/-!
# The scheduler waits

The scheduler makes a pass and waits: for a wake-up, and for its timer if builds were left in the
queue. One wake-up is kept for it until it is taken. Whatever comes in between, and in whatever
order, no build that could be given to a worker is left with nothing to wait for.
-/

namespace BuildPool

open BuildPool.Time

/-- A pool with the loop that schedules it. -/
structure Scheduler where
  course : Course
  /-- The loop made a pass and did not go on yet. -/
  waiting : Bool := false
  timer : Bool := false
  /-- How many deliveries failed whose delay is not over. -/
  sleeping : Nat := 0

namespace Scheduler

def start (config : Config) (caching : Bool) : Scheduler := { course := .start config caching }

inductive Event
  | op (o : Op)
  /-- The timer goes off. -/
  | ring

def after (s : Scheduler) : Event → Scheduler
  | .ring => { s with waiting := false }
  | .op o =>
    let next : Scheduler := { s with course := s.course.after o }
    match o with
    | .pass now =>
      { next with waiting := true, timer := decide (0 < (s.course.pool.pass now).1.queued) }
    | .takeWakeUp => { next with waiting := false }
    | .undelivered place =>
      if place < s.course.outstanding.length then { next with sleeping := s.sleeping + 1 } else next
    | .wake => { next with sleeping := s.sleeping - 1 }
    | .restart .. => { course := next.course }
    | _ => next

/-- The loop goes on if it has a reason to, and does not make a pass while it waits. -/
def Admits (s : Scheduler) : Event → Prop
  | .ring => s.waiting = true ∧ s.timer = true
  | .op .takeWakeUp => s.waiting = true ∧ s.course.pool.wakeUp = true
  | .op (.pass _) => s.waiting = false
  | .op .wake => 0 < s.sleeping
  | .op o => s.course.Admits o

inductive Reachable : Scheduler → Prop
  | start (config : Config) (caching : Bool) : Reachable (start config caching)
  | step {s : Scheduler} {e : Event} : Reachable s → s.Admits e → Reachable (s.after e)

variable {s : Scheduler} {e : Event} {o : Op}

/-! ## The pool of a scheduler -/

theorem course_after (s : Scheduler) (o : Op) : (s.after (.op o)).course = s.course.after o := by
  cases o with
  | undelivered place =>
    simp only [after]
    split
    · rfl
    · rfl
  | _ => rfl

theorem Admits.course (h : s.Admits (.op o)) : s.course.Admits o := by
  cases o with
  | submit now r id => exact h
  | _ => trivial

theorem Reachable.course (h : s.Reachable) : s.course.Reachable := by
  induction h with
  | start config caching => exact ⟨config, caching, [], .nil⟩
  | @step s e _ hadmits ih =>
    cases e with
    | ring => exact ih
    | op o =>
      rw [course_after]
      exact ih.after o hadmits.course

/-! ## Nothing is forgotten -/

/-- While the loop waits it has a wake-up to take, or one will come, or there is nothing to do. -/
def Alert (s : Scheduler) : Prop := s.waiting = true → s.course.pool.Calm ∨ 0 < s.sleeping

theorem alert_start (config : Config) (caching : Bool) : (start config caching).Alert := by
  intro hwaiting
  cases hwaiting

theorem alert_of_calm (h : s.course.Reachable) (halert : s.Alert) (hadmits : s.course.Admits o)
    (htake : o ≠ .takeWakeUp) (hfail : ∀ place, o ≠ .undelivered place)
    (hrestart : ∀ now config caching, o ≠ .restart now config caching)
    (hwaiting : s.waiting = true) : (s.course.after o).pool.Calm ∨ 0 < s.sleeping := by
  rcases halert hwaiting with hcalm | hsleeping
  · exact .inl (Course.calm_after h.sound h.limited hadmits hcalm htake hfail hrestart)
  · exact .inr hsleeping

theorem alert_after (h : s.course.Reachable) (halert : s.Alert) (hadmits : s.Admits e) :
    (s.after e).Alert := by
  intro hwaiting
  cases e with
  | ring => cases hwaiting
  | op o =>
    have hop := hadmits.course
    cases o with
    | pass now => exact .inl (.inr (Pool.not_assignable_pass h.sound.pool now))
    | takeWakeUp | restart => cases hwaiting
    | wake => exact .inl (.inl rfl)
    | undelivered place =>
      simp only [after] at hwaiting ⊢
      split at hwaiting
      · rename_i hplace
        rw [if_pos hplace]
        exact .inr (Nat.succ_pos _)
      · rename_i hplace
        have hnone : s.course.outstanding[place]? = none := List.getElem?_eq_none (by omega)
        have hsame : s.course.after (.undelivered place) = s.course := by
          rw [Course.after, hnone]
        rw [if_neg hplace, hsame]
        exact halert hwaiting
    | submit | cancel | progress | complete | satisfy | register | heartbeat | delivered | scan
    | takeSaveRequest =>
      exact alert_of_calm h halert hop (fun heq => by cases heq) (fun _ heq => by cases heq)
        (fun _ _ _ heq => by cases heq) hwaiting

theorem Reachable.alert (h : s.Reachable) : s.Alert := by
  induction h with
  | start config caching => exact alert_start config caching
  | step hs hadmits ih => exact alert_after hs.course ih hadmits

/-- In every reachable state in which the loop waits, take a queued build and an online worker with
a free slot that runs its task. Then the loop has a wake-up to take, or its timer is set, or the
delay after a delivery that failed will end with a wake-up. -/
theorem no_wakeUp_lost (h : s.Reachable) (hwaiting : s.waiting = true) {id : BuildId} {b : Build}
    {w : WorkerId} {worker : Worker} (hb : s.course.pool.ledger.find? id = some b)
    (hq : b.status = .queued) (hw : s.course.pool.roster.find? w = some worker)
    (hon : worker.isOnline = true) (hfree : worker.load < worker.capacity)
    (hs : worker.info.supports b.task = true) :
    s.course.pool.wakeUp = true ∨ s.timer = true ∨ 0 < s.sleeping := by
  have hassignable : s.course.pool.Assignable := ⟨id, b, hb, hq, w, worker, hw, hon, hfree, hs⟩
  rcases h.alert hwaiting with (hwake | hstuck) | hsleeping
  · exact .inl hwake
  · exact absurd hassignable hstuck
  · exact .inr (.inr hsleeping)

/-- A build is given to a worker that cannot be reached, after the loop took its wake-up. -/
def failedDelivery : Scheduler :=
  (((((((start {} false).after (.op (.pass ⟨0, 0⟩))).after
    (.op (.submit ⟨1, 0⟩ { project := "p", task := "t" } ⟨"a"⟩))).after
    (.op (.register ⟨2, 0⟩ { id := ⟨"w"⟩, address := "x", capacity := 1 }))).after
    (.op .takeWakeUp)).after
    (.op (.pass ⟨3, 0⟩))).after
    (.op (.undelivered 0)))

theorem reachable_failedDelivery : failedDelivery.Reachable := by
  have hpass := Reachable.step (e := .op (.pass ⟨0, 0⟩)) (.start {} false) rfl
  have hsubmit := hpass.step (e := .op (.submit ⟨1, 0⟩ { project := "p", task := "t" } ⟨"a"⟩))
    List.not_mem_nil
  have hregister := hsubmit.step
    (e := .op (.register ⟨2, 0⟩ { id := ⟨"w"⟩, address := "x", capacity := 1 })) trivial
  have hwoken := hregister.step (e := .op .takeWakeUp) ⟨rfl, rfl⟩
  have hagain := hwoken.step (e := .op (.pass ⟨3, 0⟩)) rfl
  exact hagain.step (e := .op (.undelivered 0)) trivial

/-- Only the delay is left, and that is enough. -/
theorem no_wakeUp_lost_failedDelivery : ∃ b worker,
    (failedDelivery.waiting = true ∧ failedDelivery.course.pool.wakeUp = false ∧
      failedDelivery.timer = false) ∧
    (failedDelivery.course.pool.ledger.find? ⟨"a"⟩ = some b ∧ b.status = .queued) ∧
    (failedDelivery.course.pool.roster.find? ⟨"w"⟩ = some worker ∧ worker.isOnline = true ∧
      worker.load < worker.capacity ∧ worker.info.supports b.task = true) ∧
    (failedDelivery.course.pool.wakeUp = true ∨ failedDelivery.timer = true ∨
      0 < failedDelivery.sleeping) := by
  have hb : failedDelivery.course.pool.ledger.find? ⟨"a"⟩ = some _ := rfl
  have hw : failedDelivery.course.pool.roster.find? ⟨"w"⟩ = some _ := rfl
  exact ⟨_, _, ⟨rfl, rfl, rfl⟩, ⟨hb, rfl⟩, ⟨hw, rfl, by decide, rfl⟩,
    no_wakeUp_lost reachable_failedDelivery rfl hb rfl hw rfl (by decide) rfl⟩

end Scheduler

end BuildPool
