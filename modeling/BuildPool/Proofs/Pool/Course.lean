import BuildPool.Pool.Builds
import BuildPool.Pool.Liveness
import BuildPool.Pool.Recovery
import BuildPool.Pool.Schedule
import BuildPool.Pool.Workers

/-!
# The course of a pool

Everything that can happen to a pool, one operation after the other and in any order. Deliveries are
answered late or never, and in any order; a restart goes through a snapshot of the pool as it is,
and may bring another configuration. An operation that is refused leaves everything as it is.
-/

namespace BuildPool

open BuildPool.Time

/-- A pool with what its surroundings remember of it. -/
structure Course where
  pool : Pool
  /-- The ids that builds were given, the first one in front. -/
  given : List BuildId := []
  /-- The assignments whose delivery was not answered yet. -/
  outstanding : List Assignment := []

inductive Op
  | submit (now : Instant) (r : Request) (id : BuildId)
  | cancel (now : Instant) (id : BuildId)
  | progress (now : Instant) (id : BuildId) (w : WorkerId) (amount : Float)
  | complete (now : Instant) (id : BuildId) (r : Report)
  /-- The cache had the artifacts of a build. -/
  | satisfy (now : Instant) (id : BuildId) (artifacts : List String)
  | register (now : Instant) (info : WorkerInfo)
  | heartbeat (now : Instant) (w : WorkerId) (usage : Usage)
  | pass (now : Instant)
  /-- A worker took the outstanding assignment at this place. -/
  | delivered (now : Instant) (place : Nat)
  /-- A worker could not be reached with the outstanding assignment at this place. -/
  | undelivered (place : Nat)
  /-- The delay after a failed delivery is over. -/
  | wake
  | scan (now judged : Instant)
  /-- The scheduler takes its wake-up. -/
  | takeWakeUp
  /-- The request for a snapshot is taken. -/
  | takeSaveRequest
  | restart (now : Instant) (config : Config) (caching : Bool)

namespace Course

def start (config : Config) (caching : Bool) : Course where
  pool := { Pool.empty config with caching }

/-- Goes on with the pool of an operation, if it was not refused. -/
def enter {α : Type} (c : Course) (result : Except Refusal (α × Pool)) : Course :=
  match result with
  | .ok (_, pool) => { c with pool }
  | .error _ => c

/-- What holds of the pool as it was, and of the pool of the answer if there is one, holds of the
pool after the operation. -/
theorem of_enter {α : Type} {P : Pool → Prop} {c : Course} {result : Except Refusal (α × Pool)}
    (hrefused : P c.pool) (hok : ∀ a p, result = .ok (a, p) → P p) : P (c.enter result).pool := by
  unfold enter
  split
  · rename_i a p
    exact hok a p rfl
  · exact hrefused

theorem eq_ok_of_map {result : Except Refusal Pool} {u : Unit} {p : Pool}
    (h : result.map ((), ·) = .ok (u, p)) : result = .ok p := by
  cases result with
  | error e => cases h
  | ok p' => cases h; rfl

/-- The pool after a restart from its own snapshot. The supply of ids goes on. -/
def restarted (p : Pool) (now : Instant) (config : Config) (caching : Bool) : Pool :=
  { (Pool.recover config (p.capture now) now).2 with caching, issued := p.issued }

def after (c : Course) : Op → Course
  | .submit now r id =>
    match c.pool.submitAs now r id with
    | .ok (_, pool) => { c with pool, given := c.given ++ [id] }
    | .error _ => c
  | .cancel now id => c.enter (c.pool.cancel now id)
  | .progress now id w amount => c.enter (c.pool.progress now id w amount)
  | .complete now id r => c.enter (c.pool.complete now id r)
  | .satisfy now id artifacts => { c with pool := (c.pool.satisfy now id artifacts).2 }
  | .register now info => c.enter (c.pool.register now info)
  | .heartbeat now w usage => c.enter ((c.pool.heartbeat now w usage).map ((), ·))
  | .pass now =>
    { c with
      pool := (c.pool.pass now).2
      outstanding := c.outstanding ++ (c.pool.pass now).1.assignments }
  | .delivered now place =>
    match c.outstanding[place]? with
    | some a =>
      { c with pool := c.pool.delivered now a, outstanding := c.outstanding.eraseIdx place }
    | none => c
  | .undelivered place =>
    match c.outstanding[place]? with
    | some a => { c with pool := c.pool.undelivered a, outstanding := c.outstanding.eraseIdx place }
    | none => c
  | .wake => { c with pool := c.pool.wake }
  | .scan now judged => { c with pool := (c.pool.scan now judged).2 }
  | .takeWakeUp => { c with pool.wakeUp := false }
  | .takeSaveRequest => { c with pool.saveRequest := false }
  | .restart now config caching => { c with pool := restarted c.pool now config caching }

/-- A build gets an id that no build had before. -/
def Admits (c : Course) : Op → Prop
  | .submit _ _ id => id ∉ c.given
  | _ => True

/-- These operations, one after the other, lead from one course to another. -/
inductive Run (c : Course) : List Op → Course → Prop
  | nil : Run c [] c
  | snoc {ops : List Op} {d : Course} {op : Op} :
    Run c ops d → d.Admits op → Run c (ops ++ [op]) (d.after op)

theorem Run.trans {c d e : Course} {ops more : List Op} (h : Run c ops d) (h' : Run d more e) :
    Run c (ops ++ more) e := by
  induction h' with
  | nil => rw [List.append_nil]; exact h
  | snoc _ hadmits ih => rw [← List.append_assoc]; exact ih.snoc hadmits

/-- Every build that these operations submit gets a new id. -/
def AdmitsAll (c : Course) : List Op → Prop
  | [] => True
  | op :: ops => c.Admits op ∧ (c.after op).AdmitsAll ops

theorem run_foldl {c : Course} {ops : List Op} (h : c.AdmitsAll ops) :
    Run c ops (ops.foldl Course.after c) := by
  induction ops generalizing c with
  | nil => exact .nil
  | cons op rest ih => exact (Run.nil.snoc h.1).trans (ih h.2)

theorem Run.eq_foldl {c d : Course} {ops : List Op} (h : Run c ops d) :
    d = ops.foldl Course.after c := by
  induction h with
  | nil => rfl
  | snoc _ _ ih => rw [List.foldl_append, ← ih]; rfl

/-- What operations do in one respect, one operation after the other. -/
def along {α : Type} (did : Course → Op → List α) (c : Course) : List Op → List α
  | [] => []
  | op :: ops => did c op ++ along did (c.after op) ops

theorem Run.along_snoc {α : Type} {c d : Course} {ops : List Op} (h : Run c ops d)
    (did : Course → Op → List α) (op : Op) :
    c.along did (ops ++ [op]) = c.along did ops ++ did d op := by
  rw [h.eq_foldl]
  clear h
  induction ops generalizing c with
  | nil => exact List.append_nil _
  | cons first rest ih => rw [List.cons_append, along, along, ih, List.append_assoc]; rfl

def Reachable (c : Course) : Prop := ∃ config caching ops, Run (start config caching) ops c

/-- What holds at the start and is kept by every operation holds throughout. -/
theorem Reachable.induct {P : Course → Prop} (hstart : ∀ config caching, P (start config caching))
    (hstep : ∀ c op, P c → c.Admits op → P (c.after op)) {c : Course} (h : c.Reachable) : P c := by
  obtain ⟨config, caching, ops, hrun⟩ := h
  induction hrun with
  | nil => exact hstart config caching
  | snoc _ hadmits ih => exact hstep _ _ ih hadmits

theorem Reachable.after {c : Course} (h : c.Reachable) (op : Op) (hadmits : c.Admits op) :
    (c.after op).Reachable := by
  obtain ⟨config, caching, ops, hrun⟩ := h
  exact ⟨config, caching, ops ++ [op], hrun.snoc hadmits⟩

/-! ## A small course -/

/-- Two builds wait, the later one with the higher priority, and a worker with one slot comes. -/
def twoBuilds : Course :=
  (((start {} false).after
    (.submit ⟨0, 0⟩ { project := "p", task := "t" } ⟨"a"⟩)).after
    (.submit ⟨1, 0⟩ { project := "p", task := "t", priority := 5 } ⟨"b"⟩)).after
    (.register ⟨2, 0⟩ { id := ⟨"w"⟩, address := "x", capacity := 1 })

theorem reachable_twoBuilds : twoBuilds.Reachable := by
  have hstart : (start {} false).Reachable := ⟨{}, false, [], .nil⟩
  have hfirst := hstart.after
    (.submit ⟨0, 0⟩ { project := "p", task := "t" } ⟨"a"⟩) List.not_mem_nil
  have hnew : (⟨"b"⟩ : BuildId) ∉ [⟨"a"⟩] := by decide
  have hsecond := hfirst.after
    (.submit ⟨1, 0⟩ { project := "p", task := "t", priority := 5 } ⟨"b"⟩) hnew
  exact hsecond.after _ trivial

end Course

end BuildPool
