import Mathlib.Tactic
import BuildPool.Proofs.Ledger.Recovery
import BuildPool.Proofs.Roster.Slots
import BuildPool.Snapshot.File

/-!
# Recovery from any snapshot

A snapshot file may say what it likes about builds and workers, as long as it can be read. What a
pool that starts from it looks like, and what is amiss if a build is in flight in the file without
a worker.
-/

namespace BuildPool

open BuildPool.Time Ledger

namespace Snapshot

/-- Nothing is in flight, no build has a worker, and no worker is there or holds anything. -/
structure Restored.AtRest (r : Restored) : Prop where
  builds : ∀ id b, r.ledger.find? id = some b →
    b.status ≠ .assigned ∧ b.status ≠ .running ∧ b.worker = none
  workers : ∀ w worker, r.roster.find? w = some worker →
    worker.status = .offline ∧ worker.active.toList = []

/-- What comes back from a snapshot, whatever is in it. -/
structure Recovers (s : Snapshot) (config : Config) (now : Instant) : Prop where
  workers : ∀ w worker, (s.restore config now).roster.find? w = some worker →
    worker.status = .offline ∧ worker.active.toList = []
  /-- Builds that were with a worker have lost it, by one retry or for good. A file may have a count
  of retries at the end of its word, which has no next one; nothing is said of that count here. -/
  taken : ∀ id b w, s.image.recorded id = some b → b.heldBy w = true →
    b.retries + 1 < UInt32.size →
    (s.restore config now).ledger.Remembers (b.lost config.maxRetries now)
  /-- In flight is what was recorded so and names no worker. -/
  inFlight : ∀ id b,
    ((s.restore config now).ledger.find? id = some b ∧ b.status.holdsWorker = true) ↔
      s.image.recorded id = some b ∧ b.status.holdsWorker = true ∧ b.worker = none
  stranded : ∀ id b, (s.restore config now).ledger.find? id = some b →
    b.status.holdsWorker = true → (s.restore config now).ledger.Stranded id
  /-- A worker is named only where it was recorded for a build that is not in flight. -/
  named : ∀ id b, (s.restore config now).ledger.find? id = some b → b.worker.isSome = true →
    s.image.recorded id = some b ∧ b.status.holdsWorker = false
  /-- If the records name workers just for the builds in flight, then nothing stays in flight. -/
  atRest : (∀ id b, s.image.recorded id = some b → b.worker.isSome = b.status.holdsWorker) →
    (s.restore config now).AtRest

/-- What a pool starts from, whatever snapshot it comes from. -/
theorem restore_recovers (s : Snapshot) (config : Config) (now : Instant) :
    s.Recovers config now := by
  have hlimit := config.one_le_retainedHistory
  have hworkers : ∀ w worker, (s.restore config now).roster.find? w = some worker →
      worker.status = .offline ∧ worker.active.toList = [] := by
    intro w worker hw
    obtain ⟨old, -, rfl⟩ := Roster.find?_ofRecords hw
    exact ⟨rfl, rfl⟩
  have hinFlight : ∀ id b,
      ((s.restore config now).ledger.find? id = some b ∧ b.status.holdsWorker = true) ↔
        s.image.recorded id = some b ∧ b.status.holdsWorker = true ∧ b.worker = none :=
    fun id b => inFlight_ofImage hlimit
  have hnamed : ∀ id b, (s.restore config now).ledger.find? id = some b →
      b.worker.isSome = true → s.image.recorded id = some b ∧ b.status.holdsWorker = false := by
    intro id b hb hworker
    rcases find?_ofImage_cases hb with hrecorded | ⟨hnone, -⟩
    · refine ⟨hrecorded, ?_⟩
      cases hholds : b.status.holdsWorker with
      | false => rfl
      | true =>
        rw [((hinFlight id b).1 ⟨hb, hholds⟩).2.2] at hworker
        cases hworker
    · rw [hnone] at hworker
      cases hworker
  constructor
  case workers => exact hworkers
  case taken => exact fun id b w hb hheld _ =>
    remembers_ofImage_of_heldBy config.maxRetries now hlimit hb hheld
  case inFlight => exact hinFlight
  case stranded =>
    intro id b hb hholds
    exact stranded_of_find? hb hholds ((hinFlight id b).1 ⟨hb, hholds⟩).2.2
  case named => exact hnamed
  case atRest =>
    intro hrecords
    refine ⟨fun id b hb => ?_, hworkers⟩
    have hfree : b.status.holdsWorker = false := by
      cases hholds : b.status.holdsWorker with
      | false => rfl
      | true =>
        obtain ⟨hrecorded, -, hnone⟩ := (hinFlight id b).1 ⟨hb, hholds⟩
        have hsome := hrecords id b hrecorded
        rw [hholds, hnone] at hsome
        cases hsome
    have hnone : b.worker = none := by
      cases hworker : b.worker with
      | none => rfl
      | some w =>
        obtain ⟨hrecorded, -⟩ := hnamed id b hb (by rw [hworker]; rfl)
        have hsome := hrecords id b hrecorded
        rw [hfree, hworker] at hsome
        cases hsome
    refine ⟨?_, ?_, hnone⟩
    · intro hassigned
      rw [hassigned] at hfree
      cases hfree
    · intro hrunning
      rw [hrunning] at hfree
      cases hfree

/-- A file with a build that is assigned, and with no word of a worker. -/
def strandedText : String :=
  "\x7b\"version\":1,\"saved_at\":\"2026-01-01T00:00:00Z\",\"builds\":\x7b\"builds\":[" ++
    "\x7b\"id\":\"a\",\"project\":\"p\",\"task\":\"t\",\"priority\":0,\"cache_enabled\":false," ++
    "\"submitted_at\":\"2026-01-01T00:00:00Z\",\"sequence\":1,\"status\":\"assigned\"\x7d]\x7d\x7d"

/-- The file is read, and its build stays in flight. -/
theorem inFlight_strandedText :
    ((load (.file strandedText.toUTF8)).toOption.join.map fun s =>
      ((s.restore {} ⟨0, 0⟩).ledger.find? ⟨"a"⟩).map Build.status) = some (some .assigned) := by
  decide +kernel

theorem not_atRest_of_load : ¬ ∀ (file : FileEntry) (s : Snapshot) (config : Config)
    (now : Instant), load file = .ok (some s) → (s.restore config now).AtRest := by
  intro hall
  obtain ⟨s, hs, hb⟩ := Option.map_eq_some_iff.1 inFlight_strandedText
  obtain ⟨b, hb, hassigned⟩ := Option.map_eq_some_iff.1 hb
  have hload : load (.file strandedText.toUTF8) = .ok (some s) := by
    cases hload : load (.file strandedText.toUTF8) with
    | error e =>
      rw [hload] at hs
      cases hs
    | ok found =>
      rw [hload] at hs
      exact congrArg Except.ok hs
  exact ((hall _ s {} ⟨0, 0⟩ hload).builds ⟨"a"⟩ b hb).1 hassigned

end Snapshot

end BuildPool
