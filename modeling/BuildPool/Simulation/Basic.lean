import BuildPool.Pool.Builds
import BuildPool.Pool.Schedule
import BuildPool.Pool.Liveness
import BuildPool.Pool.Recovery
import BuildPool.Pool.Workers
import BuildPool.Snapshot.File

/-!
# Simulated surroundings

A pool together with what it deals with: a clock, workers that answer every call or none, and an
artifact cache that works or fails. Every operation runs to rest, calls included, and leaves a trace
of what the surroundings saw.
-/

namespace BuildPool

open BuildPool.Time

/-- The artifacts that a cache holds, by key. -/
abbrev Artifacts := Catalog (String × List String) Prod.fst

/-- What the surroundings saw, in order. -/
structure Trace where
  events : List Event := []
  /-- The tasks that workers took, with the addresses of the workers. -/
  sent : List (String × Task) := []
  /-- The builds that workers were asked to abandon. -/
  abandoned : List (String × BuildId) := []
  lookups : List String := []
  stores : List (String × List String × Dictionary) := []
  woke : Bool := false
  saved : Bool := false

structure Simulation where
  pool : Pool
  now : Instant
  cache : Artifacts := Catalog.empty
  cacheFails : Bool := false
  workersFail : Bool := false
  /-- The assignments that were made and not delivered yet. -/
  outstanding : List Assignment := []
  trace : Trace := {}

namespace Simulation

/-! ## Calls -/

/-- The cache answers whether it has the artifacts of a build. -/
def lookUp (s : Simulation) (build : BuildId) (key : String) : Simulation :=
  let s := { s with trace.lookups := s.trace.lookups ++ [key] }
  match s.cacheFails, s.cache.find? key with
  | false, some (_, artifacts) => { s with pool := (s.pool.satisfy s.now build artifacts).2 }
  | _, _ => s

def store (s : Simulation) (key : String) (artifacts : List String) (metadata : Dictionary) :
    Simulation :=
  let s := { s with trace.stores := s.trace.stores ++ [(key, artifacts, metadata)] }
  if s.cacheFails then s else { s with cache := s.cache.insert (key, artifacts) }

def abandon (s : Simulation) (address : String) (build : BuildId) : Simulation :=
  { s with trace.abandoned := s.trace.abandoned ++ [(address, build)] }

def call (s : Simulation) : Call → Simulation
  | .lookUp build key => s.lookUp build key
  | .store key artifacts metadata => s.store key artifacts metadata
  | .abandon address build => s.abandon address build

/-- Carries out the calls that the pool started. -/
def settle (s : Simulation) : Simulation :=
  s.pool.calls.foldl call { s with pool.calls := [] }

/-! ## Operations -/

/-- Puts another pool in place of the old one and carries out the calls it started. -/
def continueWith (s : Simulation) (pool : Pool) : Simulation := settle { s with pool }

/-- An operation that answers and may change the pool. -/
def perform {α : Type} (s : Simulation) (op : Pool → Instant → α × Pool) : α × Simulation :=
  let (answer, pool) := op s.pool s.now
  (answer, s.continueWith pool)

/-- An operation that may be refused, which leaves everything as it is. -/
def attempt {ε α : Type} (s : Simulation) (op : Pool → Instant → Except ε (α × Pool)) :
    Except ε α × Simulation :=
  match op s.pool s.now with
  | .ok (answer, pool) => (.ok answer, s.continueWith pool)
  | .error e => (.error e, s)

/-! ## Scheduling -/

/-- One pass. Its assignments wait to be delivered. -/
def pass (s : Simulation) : Pass × Simulation :=
  let (result, pool) := s.pool.pass s.now
  (result, { s with pool, outstanding := s.outstanding ++ result.assignments })

def deliver (s : Simulation) (a : Assignment) : Simulation :=
  if s.workersFail then { s with pool := (s.pool.undelivered a).wake }
  else
    { s with
      pool := s.pool.delivered s.now a
      trace.sent := s.trace.sent ++ [(a.address, a.task)] }

def deliverAt (s : Simulation) (index : Nat) : Option Simulation :=
  s.outstanding[index]?.map fun a =>
    { s with outstanding := s.outstanding.eraseIdx index }.deliver a

/-- Delivers all assignments in order, and says how many there were. -/
def deliverAll (s : Simulation) : Nat × Simulation :=
  (s.outstanding.length, s.outstanding.foldl deliver { s with outstanding := [] })

/-- The scheduler works until it has to wait: it makes a pass and delivers what was assigned. The
delay after a failed delivery does not run out. -/
def runScheduler (s : Simulation) : Simulation :=
  let (result, pool) := s.pool.pass s.now
  result.assignments.foldl deliver { s with pool }

/-! ## Liveness and restarts -/

def scan (s : Simulation) (judged : Instant) : Scan × Simulation :=
  s.perform fun p now => p.scan now judged

/-- The pool is saved, and started again from the file with a configuration. What it gave out, the
cache and the workers stay as they are. -/
def restart (s : Simulation) (config : Config) :
    Except Snapshot.LoadFailure (List (BuildId × Loss)) × Simulation :=
  let disk : Snapshot.Disk := Snapshot.Disk.save {} (s.pool.capture s.now) .done
  match Snapshot.load disk.entry with
  | .error e => (.error e, s)
  | .ok none => (.ok [], s)
  | .ok (some snapshot) =>
    let (recovered, pool) := Pool.recover config snapshot s.now
    (.ok recovered,
      { s with pool := { pool with caching := s.pool.caching, issued := s.pool.issued } })

/-- The snapshot file after the snapshotter ran to its end. -/
def runSnapshotter (s : Simulation) : Snapshot.Disk :=
  let snapshot := s.pool.capture s.now
  (Snapshot.Disk.save {} snapshot .done).save snapshot .done

/-! ## Traces -/

/-- Forgets the pending wake-up and the pending request for a snapshot. -/
def dropSignals (s : Simulation) : Simulation :=
  { s with pool.wakeUp := false, pool.saveRequest := false }

/-- Takes the trace. What the pool published and asked for is part of it. -/
def takeTrace (s : Simulation) : Trace × Simulation :=
  let seen :=
    { s.trace with events := s.pool.journal, woke := s.pool.wakeUp, saved := s.pool.saveRequest }
  (seen, { s.dropSignals with pool.journal := [], trace := {} })

end Simulation

end BuildPool
