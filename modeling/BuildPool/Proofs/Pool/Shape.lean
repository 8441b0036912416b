import Mathlib.Tactic
import BuildPool.Proofs.Pool.Lifecycle

/-!
# The shape of a record

The status of a build says which fields of its record are set. Requests are checked when they come
in, and a worker that reports a failure may leave out the reason or give a blank one, so the shape
does not depend on what clients and workers write.
-/

namespace BuildPool

open BuildPool.Text BuildPool.Time Ledger

/-! ## One record -/

/-- What is to be read in the outcome of a build that ended with this status. -/
def Outcome.Tells (o : Outcome) : BuildStatus → Prop
  | .completed => o.success = true ∧ o.error = none
  | .failed | .cancelled =>
    o.success = false ∧ ∃ reason, o.error = some reason ∧ isBlank reason = false
  | .queued | .assigned | .running => False

namespace Build

structure Shaped (b : Build) : Prop where
  worker : b.worker.isSome = b.status.holdsWorker
  finishedAt : b.finishedAt.isSome = b.isTerminal
  outcome : b.outcome.isSome = b.isTerminal
  told : ∀ o, b.outcome = some o → o.Tells b.status
  queued : b.status = .queued → b.startedAt = none ∧ b.progress = 0
  held : b.status.holdsWorker = true → b.startedAt.isSome = true ∧ 1 ≤ b.attempt
  completed : b.status = .completed → b.progress = 1
  named : isBlank b.project = false ∧ isBlank b.task = false

variable {b b' : Build} {k : Cause} {maxRetries : Nat} {s : BuildStatus} {o : Outcome}

theorem named_of_validate {r : Request} (h : r.validate = .ok ()) :
    isBlank r.project = false ∧ isBlank r.task = false := by
  unfold Request.validate at h
  cases hproject : isBlank r.project <;> cases htask : isBlank r.task <;>
    simp [hproject, htask] at h ⊢

theorem shaped_ofRequest {r : Request} (h : r.validate = .ok ()) (id : BuildId) (sequence : Nat)
    (now : Instant) : (ofRequest r id sequence now).Shaped where
  worker := rfl
  finishedAt := rfl
  outcome := rfl
  told o ho := by cases ho
  queued _ := ⟨rfl, rfl⟩
  held hheld := by cases hheld
  completed hend := by cases hend
  named := named_of_validate h

/-- All that the end of a build needs of the record before it are the names. -/
theorem shaped_finish (hnamed : isBlank b.project = false ∧ isBlank b.task = false)
    (hend : s.isTerminal = true) (ho : o.Tells s) (now : Instant) : (b.finish s o now).Shaped where
  worker := (BuildStatus.holdsWorker_eq_false_of_isTerminal hend).symm
  finishedAt := hend.symm
  outcome := hend.symm
  told x hx := by cases hx; exact ho
  queued hq := by
    change s = .queued at hq
    rw [hq] at hend
    cases hend
  held hheld := by
    change s.holdsWorker = true at hheld
    rw [BuildStatus.holdsWorker_eq_false_of_isTerminal hend] at hheld
    cases hheld
  completed hs := if_pos hs
  named := hnamed

theorem verdict_tells (r : Report) : (verdict r).2.Tells (verdict r).1 := by
  unfold verdict
  cases hsuccess : r.success with
  | true => exact ⟨rfl, rfl⟩
  | false =>
    refine ⟨rfl, _, rfl, ?_⟩
    cases hreason : r.error.filter (!isBlank ·) with
    | none => decide
    | some reason => simpa using (Option.filter_eq_some_iff.1 hreason).2

theorem failure_tells {reason : String} (hs : s = .failed ∨ s = .cancelled)
    (hreason : isBlank reason = false) : (Outcome.failure reason).Tells s := by
  rcases hs with rfl | rfl <;> exact ⟨rfl, reason, rfl, hreason⟩

namespace Shaped

/-- A build that stays open has not begun to fill in how it ended. -/
theorem stay_open (h : b.Shaped) (hopen : b.isTerminal = false) (hopen' : b'.isTerminal = false)
    (hend : b'.finishedAt = b.finishedAt ∧ b'.outcome = b.outcome)
    (hnames : b'.project = b.project ∧ b'.task = b.task)
    (hworker : b'.worker.isSome = b'.status.holdsWorker)
    (hqueued : b'.status = .queued → b'.startedAt = none ∧ b'.progress = 0)
    (hheld : b'.status.holdsWorker = true → b'.startedAt.isSome = true ∧ 1 ≤ b'.attempt) :
    b'.Shaped where
  worker := hworker
  finishedAt := by rw [hend.1, h.finishedAt, hopen, hopen']
  outcome := by rw [hend.2, h.outcome, hopen, hopen']
  told o ho := by
    have hnone := h.outcome
    rw [hopen, ← hend.2, ho] at hnone
    cases hnone
  queued := hqueued
  held := hheld
  completed hs := by
    rw [isTerminal, hs] at hopen'
    cases hopen'
  named := by rw [hnames.1, hnames.2]; exact h.named

theorem assignTo (h : b.Shaped) (hopen : b.isTerminal = false) (w : WorkerId) (now : Instant) :
    (b.assignTo w now).Shaped :=
  h.stay_open hopen rfl ⟨rfl, rfl⟩ ⟨rfl, rfl⟩ rfl (fun hq => by cases hq)
    fun _ => ⟨rfl, Nat.succ_pos b.attempt⟩

theorem requeue (h : b.Shaped) (hopen : b.isTerminal = false) (retries : Nat) :
    { b with retries }.requeue.Shaped :=
  h.stay_open hopen rfl ⟨rfl, rfl⟩ ⟨rfl, rfl⟩ rfl (fun _ => ⟨rfl, rfl⟩) fun hheld => by cases hheld

/-- The worker of the build shows a sign of life. -/
theorem hold (h : b.Shaped) (hheld : b.status.holdsWorker = true) (hs : s.holdsWorker = true)
    (progress : Float) : { b with status := s, progress }.Shaped := by
  have hopen := isTerminal_eq_false_of_holdsWorker hheld
  have hopen' : { b with status := s, progress }.isTerminal = false :=
    isTerminal_eq_false_of_holdsWorker hs
  have hworker : b.worker.isSome = s.holdsWorker := by rw [h.worker, hheld, hs]
  refine h.stay_open hopen hopen' ⟨rfl, rfl⟩ ⟨rfl, rfl⟩ hworker (fun hq => ?_)
    fun _ => h.held hheld
  change s = .queued at hq
  rw [hq] at hs
  cases hs

end Shaped

/-- Whatever an operation makes of a record, the fields fit its new status. -/
theorem Change.shaped (hchange : Change maxRetries k b b') (h : b.Shaped) : b'.Shaped := by
  have hopen := hchange.isTerminal_eq_false
  cases hchange with
  | assigned w now _ => exact h.assignTo hopen w now
  | started waits =>
    have hheld : b.status.holdsWorker = true := by rw [waits]; rfl
    exact h.hold hheld rfl b.progress
  | rolledBack => exact h.requeue hopen b.retries
  | advanced amount held =>
    unfold advance
    split
    · exact h.hold (s := .running) held rfl _
    · exact h.hold held held _
  | reported r now _ => exact shaped_finish h.named (isTerminal_verdict r) (verdict_tells r) now
  | requeued => exact h.requeue hopen _
  | exhausted now =>
    exact shaped_finish (b := { b with retries := maxRetries }) h.named rfl
      (failure_tells (.inl rfl) (by decide)) now
  | cancelled now =>
    exact shaped_finish h.named rfl (failure_tells (.inr rfl) (by decide)) now
  | satisfied artifacts now _ =>
    have htells : Outcome.Tells { success := true, artifacts } .completed := ⟨rfl, rfl⟩
    exact shaped_finish h.named rfl htells now

end Build

/-! ## Every reachable pool -/

namespace Course

variable {c : Course} {op : Op} {id : BuildId} {b' : Build}

theorem validate_of_new {now : Instant} {r : Request} (h : c.Sound) (hadmits : id ∉ c.given)
    (hb' : (c.after (.submit now r id)).pool.ledger.find? id = some b') :
    r.validate = .ok () := by
  have hnone := h.pool.ledger.records.find?_eq_none hadmits
  simp only [after] at hb'
  split at hb'
  · rename_i hp
    obtain ⟨l, hl, -⟩ := Pool.submitAs_eq_ok hp
    exact (submit_eq_ok hnone hl).1
  · rw [hnone] at hb'
    cases hb'

theorem shaped_after (h : c.Sound) (hadmits : c.Admits op)
    (hshaped : ∀ id b, c.pool.ledger.find? id = some b → b.Shaped)
    (hb' : (c.after op).pool.ledger.find? id = some b') : b'.Shaped := by
  cases hb : c.pool.ledger.find? id with
  | none =>
    obtain ⟨now, r, rfl, rfl⟩ := eq_submit_of_new h hadmits hb hb'
    exact Build.shaped_ofRequest (validate_of_new h hadmits hb') id _ now
  | some b =>
    rcases makes_of_find? h hadmits hb hb' with rfl | hmakes
    · exact hshaped id b' hb
    · obtain ⟨k, maxRetries, hchange⟩ := hmakes.change
      exact hchange.shaped (hshaped id b hb)

/-- In every reachable pool the status of a build tells which fields of its record are set. -/
theorem records_shaped (h : c.Reachable) :
    ∀ id b, c.pool.ledger.find? id = some b → b.Shaped := by
  refine (h.induct (P := fun c => c.Sound ∧ ∀ id b, c.pool.ledger.find? id = some b → b.Shaped)
    (fun config caching => ⟨sound_start config caching, fun _ _ hb => by cases hb⟩)
    fun c op hc hadmits => ?_).2
  exact ⟨sound_after hc.1 hadmits, fun _ _ hb' => shaped_after hc.1 hadmits hc.2 hb'⟩

/-- A worker reports a failure and gives blanks for a reason. -/
def blankReason : Course :=
  [.submit ⟨0, 0⟩ { project := "p", task := "t" } ⟨"a"⟩,
    .register ⟨1, 0⟩ { id := ⟨"w"⟩, address := "x", capacity := 1 },
    .pass ⟨2, 0⟩,
    .complete ⟨3, 0⟩ ⟨"a"⟩ { worker := ⟨"w"⟩, success := false, error := some " \t" }].foldl
      Course.after (start {} false)

theorem reachable_blankReason : blankReason.Reachable :=
  ⟨{}, false, _, run_foldl ⟨List.not_mem_nil, trivial, trivial, trivial, trivial⟩⟩

theorem records_shaped_blankReason :
    (blankReason.pool.ledger.find? ⟨"a"⟩).bind Build.error? = some "build failed" ∧
      ∀ id b, blankReason.pool.ledger.find? id = some b → b.Shaped :=
  ⟨by cbv, records_shaped reachable_blankReason⟩

end Course

end BuildPool
