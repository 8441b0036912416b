import BuildPool.Monitor.Channel

/-!
# Forwarding events

The forwarder takes events off the channel and hands each to the monitor once. It does not stop for
an event that the monitor refuses, nor for events that it missed; it stops when the channel is
closed and empty, or when it is told to.
-/

namespace BuildPool.Monitor

structure Forwarder where
  /-- The number of the event that is handed over next. -/
  next : Nat := 0
  sent : List Event := []
  /-- How many of them the monitor refused. -/
  refused : Nat := 0
  hasStopped : Bool := false

namespace Forwarder

/-- Takes what the channel has next; `accepts` says what the monitor makes of an event. -/
def step (accepts : Event → Bool) (c : Channel) (f : Forwarder) : Forwarder :=
  if f.hasStopped then f
  else match c.receive f.next with
    | (.event e, next) =>
      { f with next, sent := f.sent ++ [e], refused := f.refused + if accepts e then 0 else 1 }
    | (.missed _, next) => { f with next }
    | (.closed, _) => { f with hasStopped := true }
    | (.nothing, _) => f

def stop (f : Forwarder) : Forwarder := { f with hasStopped := true }

def steps (accepts : Event → Bool) (c : Channel) : Nat → Forwarder → Forwarder
  | 0, f => f
  | n + 1, f => steps accepts c n (f.step accepts c)

/-- Goes on until there is nothing to take: one step for each event that is kept, one to learn what
was missed, and one to learn that the channel is closed. -/
def run (accepts : Event → Bool) (c : Channel) (f : Forwarder) : Forwarder :=
  f.steps accepts c (c.kept.length + 2)

theorem step_of_hasStopped (accepts : Event → Bool) (c : Channel) (f : Forwarder)
    (h : f.hasStopped = true) : f.step accepts c = f := by
  simp [step, h]

end Forwarder

end BuildPool.Monitor
