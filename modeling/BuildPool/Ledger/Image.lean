import BuildPool.Ledger.Basic

/-!
# Images of the ledger

An image is what a snapshot keeps of the ledger: the builds, the history, the next sequence number
and the counters. The backlog is not kept; it is rebuilt from the queued builds. No worker outlives
a restart, so a build that was with a worker has lost it when the ledger is rebuilt.
-/

namespace BuildPool

open BuildPool.Time

structure Image where
  builds : List Build
  history : List BuildId := []
  nextSequence : Nat := 0
  counters : Counters := {}
deriving DecidableEq

namespace Ledger

def toImage (l : Ledger) : Image where
  builds := bySequence l.builds.toList
  history := l.history
  nextSequence := l.nextSequence
  counters := l.counters

/-- Enters a build of an image as it is, with its place in the backlog if it is queued. -/
def enter (l : Ledger) (b : Build) : Ledger :=
  (if b.status = .queued then l.enqueue b else l).put b

/-- The largest sequence number of the builds. A file may have the last one that 64 bits hold, which
has no next one; here too this is not taken to happen (see `Build`). -/
def lastSequence (builds : List Build) : Nat := (builds.map Build.sequence).foldl max 0

/-- The ledger of an image before the workers of its builds are given up. -/
def reopen (image : Image) (maxRetries historyLimit : Nat) : Ledger :=
  let l := image.builds.foldl enter (empty maxRetries historyLimit)
  { l with
    nextSequence := max image.nextSequence (lastSequence image.builds + 1)
    counters := image.counters
    history := image.history.filter fun id => (l.find? id).any Build.isTerminal }

/-- The builds that are with a worker, in the order of their submission. -/
def inFlight (l : Ledger) : List (BuildId × WorkerId) :=
  (bySequence (l.builds.toList.filter (·.status.holdsWorker))).filterMap fun b =>
    b.worker.map (b.id, ·)

/-- Takes builds from their workers one after the other. -/
def loseAll (now : Instant) : List (BuildId × WorkerId) → Ledger → List (BuildId × Loss) × Ledger
  | [], l => ([], l)
  | (id, w) :: rest, l =>
    let (loss, l) := l.lose id w now
    let (losses, l) := loseAll now rest l
    ((id, loss) :: losses, l)

/-- The ledger of an image, and what became of the builds that were with a worker. -/
def ofImage (image : Image) (maxRetries historyLimit : Nat) (now : Instant) :
    List (BuildId × Loss) × Ledger :=
  let l := reopen image maxRetries historyLimit
  let (losses, l) := loseAll now l.inFlight l
  (losses, l.evict)

end Ledger

end BuildPool
