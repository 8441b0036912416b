import BuildPool.Event

/-!
# The event channel

Events are published on a channel that keeps the newest of them. A listener gets them one by one, in
order. If more were published meanwhile than there is room for, it learns once how many it missed
and goes on with the oldest that is kept.
-/

namespace BuildPool.Monitor

structure Channel where
  /-- How many events are kept. -/
  room : Nat
  published : Nat := 0
  /-- The newest events, the oldest of them in front. -/
  kept : List Event := []
  isClosed : Bool := false

/-- What a listener gets when it asks for the next event. -/
inductive Received
  | event (e : Event)
  | missed (count : Nat)
  | closed
  /-- There is no next event yet. -/
  | nothing
deriving DecidableEq, Repr

namespace Channel

/-- A channel for at least so many events. The room is a power of two. -/
def withCapacity (capacity : Nat) : Channel := { room := capacity.nextPowerOfTwo }

def publish (c : Channel) (e : Event) : Channel :=
  let all := c.kept ++ [e]
  { c with published := c.published + 1, kept := all.drop (all.length - c.room) }

def close (c : Channel) : Channel := { c with isClosed := true }

def oldest (c : Channel) : Nat := c.published - c.kept.length

/-- What a listener gets that waits for the event with a number, and the number it waits for
then. -/
def receive (c : Channel) (next : Nat) : Received × Nat :=
  if next < c.oldest then (.missed (c.oldest - next), c.oldest)
  else match c.kept[next - c.oldest]? with
    | some e => (.event e, next + 1)
    | none => (if c.isClosed then .closed else .nothing, next)

theorem length_kept_publish (c : Channel) (e : Event) (h : c.kept.length ≤ c.room) :
    (c.publish e).kept.length = min (c.kept.length + 1) c.room := by
  simp [publish]; omega

end Channel

end BuildPool.Monitor
