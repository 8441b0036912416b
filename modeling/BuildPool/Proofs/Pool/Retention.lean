import Mathlib.Tactic
import BuildPool.Proofs.Ledger.Moves
import BuildPool.Proofs.Pool.Keeps
import BuildPool.Proofs.Wire.Snapshots

/-!
# How many builds that ended are kept

A pool that starts from a snapshot file takes over its builds and its history, which need not fit
each other. The history keeps to the limit from the start, whatever happens to the pool. A build
that ended and that the history of the file leaves out is never dropped, so such builds come on top
of the limit.
-/

namespace BuildPool

open BuildPool.Time BuildPool.Json Ledger

/-! ## Passes -/

namespace Passing

variable {s : Passing} {e : Entry} {now : Instant} {timeout : UInt64}

theorem moves_bind (s : Passing) (e : Entry) (w : Worker) (now : Instant) (timeout : UInt64) :
    Moves s.ledger (s.bind e w now timeout).2.ledger := by
  unfold bind
  split
  · exact .refl
  · split
    · rename_i hassign
      exact moves_assign hassign
    · split
      · exact .refl
      · exact .refl

theorem moves_step (s : Passing) (e : Entry) (now : Instant) (timeout : UInt64) :
    Moves s.ledger (s.step e now timeout).ledger := by
  have hplace : Moves s.ledger (s.place e now timeout).2.ledger := by
    unfold place
    split
    · exact .refl
    · split
      · exact .refl
      · exact moves_bind s e _ now timeout
  unfold step
  split <;> simp_all only

theorem moves_run (now : Instant) (timeout : UInt64) (fuel : Nat) (s : Passing) :
    Moves s.ledger (run now timeout fuel s).ledger := by
  induction fuel generalizing s with
  | zero => exact .refl
  | succ fuel ih =>
    have hpop := moves_popQueued s.ledger
    unfold run
    split
    · split
      · rename_i hnone
        rw [hnone] at hpop
        exact hpop
      · rename_i e ledger hsome
        rw [hsome] at hpop
        have hstep := moves_step { s with ledger } e now timeout
        exact (hpop.trans hstep).trans (ih _)
    · exact .refl

end Passing

theorem Pool.moves_pass (p : Pool) (now : Instant) : Moves p.ledger (p.pass now).2.ledger :=
  have hrun := Passing.moves_run now p.config.buildTimeout p.ledger.backlog.size
    ⟨p.ledger, p.roster, [], []⟩
  hrun.trans (moves_pushBack _ _)

/-! ## Every operation -/

namespace Course

variable {c : Course} {op : Op} {strays : List Build}

theorem moves_enter {α : Type} {result : Except Refusal (α × Pool)}
    (hp : ∀ a p, result = .ok (a, p) → Moves c.pool.ledger p.ledger) :
    Moves c.pool.ledger (c.enter result).pool.ledger :=
  of_enter (P := fun p => Moves c.pool.ledger p.ledger) .refl hp

/-- Whatever stands in the ledger, an operation comes to a few moves, a restart apart. -/
theorem moves_after (c : Course) (hop : ∀ now config caching, op ≠ .restart now config caching) :
    Moves c.pool.ledger (c.after op).pool.ledger := by
  cases op with
  | submit now r id =>
    simp only [after]
    split
    · rename_i b p hp
      obtain ⟨l, hl, hledger, -⟩ := Pool.submitAs_eq_ok hp
      rw [hledger]
      exact moves_submit hl
    · exact .refl
  | cancel now id =>
    refine moves_enter fun answer p hp => ?_
    obtain ⟨l, hl, rfl⟩ := Pool.cancel_eq_ok hp
    split
    · rw [(Pool.tables_announceCancellation _ _ _ _).1]
      split
      · rw [Pool.ledger_free]
        exact moves_cancel hl
      · exact moves_cancel hl
    · exact .refl
  | progress now id w amount =>
    refine moves_enter fun held p hp => ?_
    rcases Pool.progress_eq_ok hp with rfl | ⟨l, hl, hledger, -⟩
    · exact .refl
    · rw [hledger]
      exact moves_progress hl
  | complete now id r =>
    refine moves_enter fun held p hp => ?_
    rcases Pool.complete_eq_ok hp with rfl | ⟨l, hl, hledger, -⟩
    · exact .refl
    · rw [hledger, Pool.ledger_free]
      exact moves_complete hl
  | satisfy now id artifacts =>
    simp only [after, Pool.satisfy]
    split
    · exact .refl
    · rename_i l hl
      exact moves_satisfy? hl
  | register now info =>
    refine moves_enter fun worker p hp => ?_
    obtain ⟨-, -, hledger, -⟩ := Pool.register_eq_ok hp
    rw [hledger]
  | heartbeat now w usage =>
    refine moves_enter fun u p hp => ?_
    obtain ⟨-, -, -, hledger, -⟩ := Pool.heartbeat_eq_ok (eq_ok_of_map hp)
    rw [hledger]
  | pass now => exact c.pool.moves_pass now
  | delivered now place =>
    simp only [after, Pool.delivered]
    split
    · split
      · exact .refl
      · rename_i l hl
        exact moves_acknowledge? hl
    · exact .refl
  | undelivered place =>
    simp only [after, Pool.undelivered]
    split
    · split
      · exact .refl
      · rename_i l hl
        rw [Pool.ledger_free]
        exact moves_rollback? hl
    · exact .refl
  | scan now judged =>
    obtain ⟨roster, heq, -⟩ := c.pool.scan_eq now judged
    simp only [after]
    rw [heq, (Pool.tables_announceScan _ _ _).1]
    exact moves_loseAll now _ _
  | restart now config caching => exact absurd rfl (hop now config caching)
  | wake | takeWakeUp | takeSaveRequest => exact .refl

/-! ## Every run -/

/-- The ledger keeps to its limits, and accounts for the builds that ended but for these. -/
structure Retains (strays : List Build) (c : Course) : Prop where
  limited : c.Limited
  accounts : Accounts strays c.pool.ledger

/-- A restart takes over the history as it is, so that it leaves out the same builds. -/
theorem Retains.restart (h : c.Retains strays) (now : Instant) (config : Config)
    (caching : Bool) : (c.after (.restart now config caching)).Retains strays where
  limited := within_ofImage c.pool.ledger.toImage config.maxRetries config.retainedHistory now
  accounts := by
    have hfind := find?_reopen c.pool.ledger config.maxRetries config.retainedHistory
    have hreopened : Accounts strays
        (reopen c.pool.ledger.toImage config.maxRetries config.retainedHistory) := by
      constructor
      case accounted =>
        intro id b hb hend
        refine (h.accounts.accounted id b (by rw [← hfind, hb]) hend).imp_left fun hid => ?_
        exact List.mem_filter.2 ⟨hid, (Option.any_eq_true ..).2 ⟨b, hb, hend⟩⟩
      case kept =>
        intro b hb
        rw [hfind]
        exact h.accounts.kept b hb
      case unlisted => exact fun b hb hid => h.accounts.unlisted b hb (List.mem_filter.1 hid).1
    exact (Moves.keep (fun hmove hl => hl.move hmove)
      (moves_loseAll now (reopen c.pool.ledger.toImage config.maxRetries
        config.retainedHistory).inFlight _) hreopened).evict

theorem Retains.after (h : c.Retains strays) (op : Op) : (c.after op).Retains strays := by
  by_cases hop : ∃ now config caching, op = .restart now config caching
  · obtain ⟨now, config, caching, rfl⟩ := hop
    exact h.restart now config caching
  · have hne : ∀ now config caching, op ≠ .restart now config caching :=
      fun now config caching heq => hop ⟨now, config, caching, heq⟩
    have hmoves := c.moves_after hne
    refine ⟨?_, hmoves.keep (fun hmove hl => hl.move hmove) h.accounts⟩
    unfold Limited
    rw [config_after c hne]
    exact hmoves.keep (fun hmove hl => hl.move hmove) h.limited

theorem Retains.foldl (h : c.Retains strays) (ops : List Op) :
    (ops.foldl Course.after c).Retains strays := by
  induction ops generalizing c with
  | nil => exact h
  | cons op rest ih => exact ih (h.after op)

/-! ## Pools that start from a file -/

/-- A pool right after its start from a snapshot. What its surroundings remember is up to them. -/
def resumed (config : Config) (s : Snapshot) (now : Instant) (caching : Bool) (issued : Nat)
    (given : List BuildId) (outstanding : List Assignment) : Course where
  pool := { (Pool.recover config s now).2 with caching, issued }
  given
  outstanding

theorem retains_resumed {config : Config} {s : Snapshot} {now : Instant} {caching : Bool}
    {issued : Nat} {given : List BuildId} {outstanding : List Assignment}
    (honce : (s.image.builds.map Build.id).Nodup) :
    (resumed config s now caching issued given outstanding).Retains s.image.unlisted where
  limited := within_ofImage s.image config.maxRetries config.retainedHistory now
  accounts := (Moves.keep (fun hmove hl => hl.move hmove)
    (moves_loseAll now (reopen s.image config.maxRetries config.retainedHistory).inFlight _)
    (accounts_reopen honce config.maxRetries config.retainedHistory)).evict

/-- The builds that ended, in a pool that started from a snapshot. -/
structure KeepsEnds (s : Snapshot) (c : Course) : Prop where
  listed : c.pool.ledger.history.length ≤ c.pool.config.retainedHistory
  /-- Each is in the history, or it is in the snapshot and its history leaves it out. -/
  accounted : ∀ id b, c.pool.ledger.find? id = some b → b.isTerminal = true →
    id ∈ c.pool.ledger.history ∨ b ∈ s.image.unlisted
  /-- Those that the history of the snapshot leaves out are there for good. -/
  stays : ∀ b ∈ s.image.unlisted, c.pool.ledger.find? b.id = some b ∧
    b.id ∉ c.pool.ledger.history
  bounded : (c.pool.ledger.idsWhere Build.isTerminal).length ≤
    c.pool.config.retainedHistory + s.image.unlisted.length
  exceeds : s.image.unlisted.length ≤ (c.pool.ledger.idsWhere Build.isTerminal).length
  /-- If the snapshot lists what ended, the limit holds. -/
  keptTo : (∀ b ∈ s.image.builds, b.isTerminal = true → b.id ∈ s.image.history) →
    (c.pool.ledger.idsWhere Build.isTerminal).length ≤ c.pool.config.retainedHistory

/-- Whatever happens to a pool that started from a snapshot, it keeps as many builds that ended as
its limit allows, and those that the history of the snapshot leaves out. -/
theorem restored_keepsEnds (config : Config) (s : Snapshot) (now : Instant) (caching : Bool)
    (issued : Nat) (given : List BuildId) (outstanding : List Assignment) (ops : List Op)
    (honce : (s.image.builds.map Build.id).Nodup) :
    KeepsEnds s
      (ops.foldl after (resumed config s now caching issued given outstanding)) := by
  have hstart : (resumed config s now caching issued given outstanding).Retains
      s.image.unlisted :=
    retains_resumed honce
  obtain ⟨hlimited, haccounts⟩ := hstart.foldl ops
  have hunlisted : (s.image.unlisted.map Build.id).Nodup :=
    honce.sublist (List.filter_sublist.map Build.id)
  have hbounded := haccounts.length_ended_le
  have hfits := hlimited.fits
  constructor
  case listed => exact hfits
  case accounted => exact haccounts.accounted
  case stays => exact fun b hb => ⟨(haccounts.kept b hb).1, haccounts.unlisted b hb⟩
  case bounded => omega
  case exceeds => exact haccounts.length_le_ended hunlisted
  case keptTo =>
    intro hlists
    have hnone : s.image.unlisted = [] := by
      refine List.filter_eq_nil_iff.2 fun b hb hout => ?_
      obtain ⟨hend, hout⟩ := Bool.and_eq_true_iff.1 hout
      simp [hlists b hb hend] at hout
    rw [hnone, List.length_nil] at hbounded
    omega

/-- A build that ended. -/
def endedBuild (name : String) (sequence : Nat) : Build :=
  (Build.ofRequest { project := "p", task := "t" } ⟨name⟩ sequence ⟨0, 0⟩).finish .completed
    { success := true } ⟨1, 0⟩

/-- A snapshot with two builds that ended, and with a history that lists one of them. -/
def halfListed : Snapshot where
  version := Snapshot.currentVersion
  savedAt := ⟨2, 0⟩
  image := { builds := [endedBuild "a" 1, endedBuild "b" 2], history := [⟨"b"⟩] }

theorem halfListed_keepsEnds : (halfListed.image.builds.map Build.id).Nodup ∧
    KeepsEnds halfListed
      ([.pass ⟨4, 0⟩, .restart ⟨5, 0⟩ {} false].foldl after
        (resumed {} halfListed ⟨3, 0⟩ false 0 [] [])) :=
  have honce : (halfListed.image.builds.map Build.id).Nodup := by decide
  ⟨honce, restored_keepsEnds {} halfListed ⟨3, 0⟩ false 0 [] [] _ honce⟩

end Course

namespace Snapshot

/-- The record of a build that ended, with what has no default. -/
def endedRecord (name : String) (sequence : Nat) : Json :=
  .object [("id", .string name), ("project", .string "p"), ("task", .string "t"),
    ("priority", .int 0), ("cache_enabled", .bool false),
    ("submitted_at", .string "2026-01-01T00:00:00Z"), ("sequence", .int sequence),
    ("status", .string "completed")]

/-- The document of a snapshot with two builds that ended, and without a history. -/
def unlistedDocument : Json :=
  .object [("version", .int 1), ("saved_at", .string "2026-01-01T00:00:00Z"),
    ("builds", .object [("builds", .array [endedRecord "a" 1, endedRecord "b" 2])])]

theorem writable_unlistedDocument : unlistedDocument.Writable := by
  simp [unlistedDocument, endedRecord, Json.Writable, WritableItems, WritableMembers]

/-- The document is read, no two of its builds have the same identifier, and a pool that keeps one
build that ended has both. -/
theorem ended_unlistedDocument :
    (decode unlistedDocument : Except Fault Snapshot).toOption.map (fun s =>
      (decide (s.version ≤ currentVersion), decide (s.image.builds.map Build.id).Nodup,
        ((s.restore { historyLimit := 1 } ⟨0, 0⟩).ledger.idsWhere Build.isTerminal).length)) =
      some (true, true, 2) := by
  decide +kernel

theorem not_length_ended_le_of_load : ¬ ∀ (file : FileEntry) (s : Snapshot) (config : Config)
    (now : Instant), load file = .ok (some s) → (s.image.builds.map Build.id).Nodup →
    ((s.restore config now).ledger.idsWhere Build.isTerminal).length ≤ config.retainedHistory := by
  intro hall
  obtain ⟨s, hs, hended⟩ := Option.map_eq_some_iff.1 ended_unlistedDocument
  simp only [Prod.mk.injEq, decide_eq_true_eq] at hended
  obtain ⟨hversion, honce, htwo⟩ := hended
  have hdecode : decode unlistedDocument = .ok s := by
    cases hdecode : (decode unlistedDocument : Except Fault Snapshot) with
    | error fault =>
      rw [hdecode] at hs
      cases hs
    | ok found =>
      rw [hdecode] at hs
      exact congrArg Except.ok (Option.some.inj hs)
  have htext : decodeText Snapshot unlistedDocument.compact = .ok s :=
    (decodeText_of_ofText? (ofText?_compact writable_unlistedDocument)).trans hdecode
  have hle := hall _ s { historyLimit := 1 } ⟨0, 0⟩ (load_toUTF8 htext hversion) honce
  rw [htwo] at hle
  exact absurd hle (by decide)

end Snapshot

end BuildPool
