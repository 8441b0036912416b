import BuildPool.Time.Calendar

/-!
# Instants

An instant is a count of seconds from 1970-01-01T00:00:00Z and of nanoseconds within the second. A
leap second is written as a second that lasts longer, so its nanoseconds run past a thousand
million.
-/

namespace BuildPool.Time

def nanosPerSecond : Nat := 1000000000

def nanosPerMilli : Nat := 1000000

def secondsPerDay : Int := 86400

structure Instant where
  second : Int
  nano : Nat
deriving DecidableEq, Repr, Inhabited

namespace Instant

/-- Earlier comes first; within one second, fewer nanoseconds do. -/
def before (a b : Instant) : Bool :=
  a.second < b.second || (a.second == b.second && a.nano < b.nano)

instance : LT Instant := ⟨fun a b => a.before b = true⟩

instance (a b : Instant) : Decidable (a < b) := inferInstanceAs (Decidable (_ = true))

def dayNumber (t : Instant) : Int := t.second.fdiv secondsPerDay

def secondOfDay (t : Instant) : Nat := (t.second.fmod secondsPerDay).toNat

def inLeapSecond (t : Instant) : Bool := nanosPerSecond ≤ t.nano

/-- The seconds that a leap second adds between two times of day. -/
def leapBetween (later earlier : Instant) : Int :=
  if earlier.secondOfDay < later.secondOfDay && earlier.inLeapSecond then 1
  else if later.secondOfDay < earlier.secondOfDay && later.inLeapSecond then -1
  else 0

/-- Nanoseconds from one instant to another. -/
def since (later earlier : Instant) : Int :=
  (later.second - earlier.second + leapBetween later earlier) * nanosPerSecond +
    (later.nano - earlier.nano)

/-- Moves by a number of nanoseconds, backward if it is negative. -/
def addNanos (t : Instant) (n : Int) : Instant :=
  let total := t.second * nanosPerSecond + t.nano + n
  ⟨total.fdiv nanosPerSecond, (total.fmod nanosPerSecond).toNat⟩

theorem since_self (t : Instant) : t.since t = 0 := by
  simp [since, leapBetween]

end Instant

end BuildPool.Time
