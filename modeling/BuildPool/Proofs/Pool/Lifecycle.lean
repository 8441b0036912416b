import BuildPool.Proofs.Pool.Evolution

/-!
# The life of a build

What a client may rely on once a build has an id: an operation moves the build on by one way at
most, what was submitted stays, the end of a build is the end, and an id that was dropped is unknown
for ever.
-/

namespace BuildPool

open BuildPool.Time Ledger

namespace Build

theorem isTerminal_iff {b : Build} : b.isTerminal = true ↔
    b.status = .completed ∨ b.status = .failed ∨ b.status = .cancelled := by
  unfold isTerminal
  cases b.status <;> simp [BuildStatus.isTerminal]

end Build

namespace Pool

/-! ## Requests for builds that are not known -/

/-- Whatever is asked about the build, the answer is that there is no such build. -/
structure Unknown (p : Pool) (id : BuildId) : Prop where
  absent : p.ledger.find? id = none
  status : p.status id = .error (.unknownBuild id)
  cancel : ∀ now, p.cancel now id = .error (.unknownBuild id)
  complete : ∀ now r, p.complete now id r = .error (.unknownBuild id)

theorem unknown_of_find? {p : Pool} {id : BuildId} (hnone : p.ledger.find? id = none) :
    p.Unknown id := by
  have hrequire : p.ledger.require id = .error (.unknownBuild id) := by
    rw [Ledger.require, hnone]
  constructor
  case absent => exact hnone
  case status => exact hrequire
  case cancel =>
    intro now
    rw [Pool.cancel, Ledger.cancel, hrequire]
    rfl
  case complete =>
    intro now r
    rw [Pool.complete, Ledger.complete, hrequire]
    rfl

end Pool

namespace Course

variable {c d : Course} {op : Op} {ops : List Op} {id : BuildId} {b b' : Build}

/-! ## One operation -/

theorem makes_of_find? (h : c.Sound) (hadmits : c.Admits op)
    (hb : c.pool.ledger.find? id = some b) (hb' : (c.after op).pool.ledger.find? id = some b') :
    b' = b ∨ op.Makes b b' := by
  have hid := (h.pool.ledger.records.numbered id b hb).mem
  obtain ⟨x, hx, hmakes⟩ := (changes_after h hadmits).former id hid b' hb'
  rw [hb] at hx
  cases hx
  exact hmakes

theorem leadsTo_after (h : c.Sound) (hadmits : c.Admits op)
    (hb : c.pool.ledger.find? id = some b) (hb' : (c.after op).pool.ledger.find? id = some b') :
    b'.status = b.status ∨ b.status.leadsTo b'.status = true := by
  rcases makes_of_find? h hadmits hb hb' with rfl | hmakes
  · exact .inl rfl
  · obtain ⟨k, maxRetries, hchange⟩ := hmakes.change
    exact hchange.leadsTo

theorem eq_satisfy_of_completed (h : c.Sound) (hadmits : c.Admits op)
    (hb : c.pool.ledger.find? id = some b) (hb' : (c.after op).pool.ledger.find? id = some b')
    (hq : b.status = .queued) (hend : b'.status = .completed) :
    ∃ now artifacts, op = .satisfy now id artifacts := by
  rcases makes_of_find? h hadmits hb hb' with rfl | ⟨hnamed, k, maxRetries, hcause, hchange⟩
  · rw [hq] at hend
    cases hend
  · obtain rfl := hchange.eq_cacheHit hq hend
    cases op with
    | satisfy now x artifacts =>
      have hx : b.id = x := hnamed x rfl
      rw [id_of_find? hb] at hx
      subst hx
      exact ⟨now, artifacts, rfl⟩
    | _ => cases hcause

/-- A record that was not there before is that of a build just submitted. -/
theorem eq_submit_of_new (h : c.Sound) (hadmits : c.Admits op)
    (hnone : c.pool.ledger.find? id = none)
    (hb' : (c.after op).pool.ledger.find? id = some b') :
    ∃ now r, op = .submit now r id ∧
      b' = .ofRequest r id c.pool.ledger.nextSequence now := by
  have hid := ((sound_after h hadmits).pool.ledger.records.numbered id b' hb').mem
  have hold : id ∉ c.given := by
    intro hmem
    obtain ⟨b, hb, -⟩ := (changes_after h hadmits).former id hmem b' hb'
    rw [hnone] at hb
    cases hb
  rcases given_after_cases c op with heq | ⟨now, r, x, rfl, heq⟩
  · rw [heq] at hid
    exact absurd hid hold
  · rw [heq, List.mem_append, List.mem_singleton] at hid
    obtain rfl := hid.resolve_left hold
    refine ⟨now, r, rfl, ?_⟩
    simp only [after] at hb'
    split at hb'
    · rename_i b p hp
      obtain ⟨l, hl, hledger, -⟩ := Pool.submitAs_eq_ok hp
      obtain ⟨-, rfl, rfl⟩ := submit_eq_ok hnone hl
      change p.ledger.find? id = some b' at hb'
      rw [hledger] at hb'
      have hput := find?_put_self c.pool.ledger
        (.ofRequest r id c.pool.ledger.nextSequence now)
      exact Option.some.inj (hb'.symm.trans hput)
    · rw [hnone] at hb'
      cases hb'

/-! ## All of it -/

/-- What the builds of a pool can look forward to, in one operation and in all that may follow. -/
structure Lifecycle (c : Course) : Prop where
  /-- Every build in the ledger was given its id. -/
  known : ∀ id b, c.pool.ledger.find? id = some b → b.id = id ∧ id ∈ c.given
  enters : ∀ op id b', c.Admits op → c.pool.ledger.find? id = none →
    (c.after op).pool.ledger.find? id = some b' →
    b'.status = .queued ∧ ∃ now r, op = .submit now r id
  moves : ∀ op id b b', c.Admits op → c.pool.ledger.find? id = some b →
    (c.after op).pool.ledger.find? id = some b' →
    b'.status = b.status ∨ b.status.leadsTo b'.status = true
  /-- Only artifacts of the cache complete a build that waits. -/
  cached : ∀ op id b b', c.Admits op → c.pool.ledger.find? id = some b →
    (c.after op).pool.ledger.find? id = some b' →
    b.status = .queued → b'.status = .completed → ∃ now artifacts, op = .satisfy now id artifacts
  /-- A build leaves the ledger only when it ended, at the latest by the operation that drops it. -/
  dropped : ∀ op id b, c.Admits op → c.pool.ledger.find? id = some b →
    (c.after op).pool.ledger.find? id = none →
    ∃ b', (b' = b ∨ op.Makes b b') ∧ b'.isTerminal = true
  kept : ∀ ops d id b b', Run c ops d → c.pool.ledger.find? id = some b →
    d.pool.ledger.find? id = some b' →
    b'.id = b.id ∧ b'.project = b.project ∧ b'.task = b.task ∧ b'.priority = b.priority ∧
      b'.cacheEnabled = b.cacheEnabled ∧ b'.options = b.options ∧
      b'.submittedAt = b.submittedAt ∧ b'.sequence = b.sequence
  final : ∀ ops d id b b', Run c ops d → c.pool.ledger.find? id = some b →
    b.status = .completed ∨ b.status = .failed ∨ b.status = .cancelled →
    d.pool.ledger.find? id = some b' → b' = b
  /-- A build that got an id and is not in the ledger any more was dropped, for good. -/
  gone : ∀ ops d id, Run c ops d → id ∈ c.given → c.pool.ledger.find? id = none →
    d.pool.Unknown id

theorem Sound.lifecycle (h : c.Sound) : c.Lifecycle where
  known id b hb := ⟨id_of_find? hb, (h.pool.ledger.records.numbered id b hb).mem⟩
  enters op id b' hadmits hnone hb' := by
    obtain ⟨now, r, rfl, rfl⟩ := eq_submit_of_new h hadmits hnone hb'
    exact ⟨rfl, now, r, rfl⟩
  moves op id b b' hadmits hb hb' := leadsTo_after h hadmits hb hb'
  cached op id b b' hadmits hb hb' hq hend := eq_satisfy_of_completed h hadmits hb hb' hq hend
  dropped op id b hadmits hb hnone := (changes_after h hadmits).dropped id b hb hnone
  kept ops d id b b' hrun hb hb' := by
    have hsame := (hrun.of_find? h hb hb').1
    simpa only [Build.submission, Prod.mk.injEq] using hsame
  final ops d id b b' hrun hb hend hb' :=
    (hrun.of_find? h hb hb').2 (Build.isTerminal_iff.2 hend)
  gone ops d id hrun hid hnone := Pool.unknown_of_find? (hrun.find?_eq_none h hid hnone)

/-- In every reachable pool builds move along the ways of their lives, and no other. -/
theorem builds_move_on (h : c.Reachable) : c.Lifecycle := h.sound.lifecycle

/-- One build that ended is kept at a time, and two ended. -/
def oneKept : Course :=
  ((((start { historyLimit := 1 } false).after
    (.submit ⟨0, 0⟩ { project := "p", task := "t" } ⟨"a"⟩)).after
    (.submit ⟨1, 0⟩ { project := "p", task := "t" } ⟨"b"⟩)).after
    (.satisfy ⟨2, 0⟩ ⟨"a"⟩ ["x"])).after
    (.cancel ⟨3, 0⟩ ⟨"b"⟩)

theorem reachable_oneKept : oneKept.Reachable := by
  have hstart : (start { historyLimit := 1 } false).Reachable := ⟨_, false, [], .nil⟩
  have hfirst := hstart.after
    (.submit ⟨0, 0⟩ { project := "p", task := "t" } ⟨"a"⟩) List.not_mem_nil
  have hnew : (⟨"b"⟩ : BuildId) ∉ [⟨"a"⟩] := by decide
  have hsecond := hfirst.after
    (.submit ⟨1, 0⟩ { project := "p", task := "t" } ⟨"b"⟩) hnew
  exact (hsecond.after (.satisfy ⟨2, 0⟩ ⟨"a"⟩ ["x"]) trivial).after _ trivial

theorem builds_move_on_oneKept :
    oneKept.given = [⟨"a"⟩, ⟨"b"⟩] ∧ oneKept.pool.ledger.find? ⟨"a"⟩ = none ∧ oneKept.Lifecycle :=
  ⟨rfl, rfl, builds_move_on reachable_oneKept⟩

end Course

end BuildPool
