import BuildPool.Proofs.CacheKey
import BuildPool.Proofs.Pool.Evolution
import BuildPool.Proofs.Pool.Keeps

/-!
# Calls to the cache

A pool asks the cache under the key of the build that it queued. It gives the cache artifacts when a
worker reports them, under the key of the build that the report completed and with the id of this
build beside them. So a build that the cache completes gets the artifacts of a build whose inputs
fall into the same pieces.
-/

namespace BuildPool

open BuildPool.Time Ledger

namespace Build

/-- A build that is completed with these artifacts, and that the cache may know. -/
structure Made (b : Build) (artifacts : List String) : Prop where
  cached : b.cacheEnabled = true
  completed : b.status = .completed
  artifacts : b.outcome.map Outcome.artifacts = some artifacts

theorem Made.isTerminal {b : Build} {artifacts : List String} (h : b.Made artifacts) :
    b.isTerminal = true := by
  rw [Build.isTerminal, h.completed]
  rfl

/-- Unless the hash takes different bytes of the two for the same, they have the same pieces; so
they have the same inputs, if both are free of separators. -/
def MadeAlike (a b : Build) : Prop :=
  (Digest.sha256 a.keyBytes = Digest.sha256 b.keyBytes → a.keyBytes = b.keyBytes) →
    a.keyPieces = b.keyPieces ∧ (a.Separable → b.Separable → a.SameInputs b)

theorem madeAlike_of_cacheKey_eq {a b : Build} (h : a.cacheKey = b.cacheKey) : a.MadeAlike b := by
  intro hhash
  have htells := keyTells a b
  have hbytes : a.keyBytes = b.keyBytes := (htells.key hhash).1 h
  exact ⟨htells.exact.1 hbytes, fun ha hb => (htells.separable ha hb).1 hbytes⟩

end Build

namespace Ledger

/-- The record that the report of a worker leaves. -/
theorem eq_finish_of_complete {l l' : Ledger} {id : BuildId} {r : Report} {now : Instant}
    {b : Build} (h : l.complete id r now = .ok (some l')) (hb : l'.find? id = some b) :
    ∃ c, l.find? id = some c ∧ c.heldBy r.worker = true ∧
      b = c.finish (verdict r).1 (verdict r).2 now := by
  obtain ⟨c, hc, hheld, rfl⟩ := complete_eq_ok h
  refine ⟨c, hc, hheld, ?_⟩
  obtain rfl := id_of_find? hc
  rcases find?_archive_cases hb with ⟨-, heq⟩ | ⟨hne, -⟩
  · exact heq
  · exact absurd rfl hne

theorem success_of_verdict {r : Report} (h : (verdict r).1 = .completed) :
    r.success = true ∧ (verdict r).2.artifacts = r.artifacts := by
  unfold verdict at h ⊢
  split at h
  · rename_i hsuccess
    rw [if_pos hsuccess]
    exact ⟨hsuccess, rfl⟩
  · cases h

end Ledger

/-- From one pool to the next a worker reported that a build which it had is completed, and the
cache was given what the report says. -/
structure Pool.Stores (p p' : Pool) (r : Report) (a : Build) (key : String)
    (artifacts : List String) (metadata : Dictionary) : Prop where
  held : ∃ b, p.ledger.find? a.id = some b ∧ b.heldBy r.worker = true
  success : r.success = true
  brought : r.artifacts = artifacts
  recorded : p'.ledger.find? a.id = some a
  made : a.Made artifacts
  underKey : a.cacheKey = key
  named : metadata.find? "build_id" = some ("build_id", a.id.text)
  called : p'.calls = p.calls ++ [.store key artifacts metadata]

/-- A call to the cache is about a build, and under its key. Artifacts are stored at the report of
the worker that had the build. -/
def Call.Fits (op : Op) (p p' : Pool) : Call → Prop
  | .lookUp id key => ∃ b, p'.ledger.find? id = some b ∧ b.cacheEnabled = true ∧ b.cacheKey = key
  | .store key artifacts metadata =>
    ∃ now r a, op = .complete now a.id r ∧ p.Stores p' r a key artifacts metadata
  | .abandon .. => True

/-- At most one call is started, and it fits. -/
def Pool.StartsFit (op : Op) (p p' : Pool) : Prop :=
  p'.calls = p.calls ∨ ∃ call, p'.calls = p.calls ++ [call] ∧ call.Fits op p p'

namespace Pool

variable {p p' : Pool} {op : Op} {id : BuildId} {w : WorkerId} {now : Instant}

theorem calls_free (p : Pool) (w : WorkerId) (b : BuildId) : (p.free w b).calls = p.calls := by
  unfold free
  split <;> rfl

theorem calls_foldl_publish {α : Type} (news : α → Event) (xs : List α) (p : Pool) :
    (xs.foldl (fun p x => p.publish (news x)) p).calls = p.calls := by
  induction xs generalizing p with
  | nil => rfl
  | cons x rest ih => exact ih _

theorem startsFit_of_calls (h : p'.calls = p.calls) : StartsFit op p p' := .inl h

theorem startsFit_submitAs {r : Request} {b : Build} (hnew : p.ledger.find? id = none)
    (h : p.submitAs now r id = .ok (b, p')) : StartsFit op p p' := by
  obtain ⟨⟨b', l⟩, hl, h⟩ := Refusal.of_bind_eq_ok h
  simp only [pure, Except.pure, Except.ok.injEq, Prod.mk.injEq] at h
  obtain ⟨rfl, rfl⟩ := h
  obtain ⟨-, rfl, rfl⟩ := submit_eq_ok hnew hl
  split
  · rename_i hasks
    exact .inr ⟨_, rfl, _, find?_put_self .., (Bool.and_eq_true_iff.1 hasks).1, rfl⟩
  · exact startsFit_of_calls rfl

theorem startsFit_cancel {answer : Cancellation} (h : p.cancel now id = .ok (answer, p')) :
    StartsFit op p p' := by
  obtain ⟨l, -, rfl⟩ := cancel_eq_ok h
  split
  · unfold announceCancellation
    cases answer.released with
    | none => exact startsFit_of_calls rfl
    | some w =>
      simp only
      split
      · exact startsFit_of_calls (calls_free _ _ _)
      · rename_i worker _
        refine .inr ⟨.abandon worker.info.address id, ?_, trivial⟩
        exact congrArg (· ++ _) (calls_free _ _ _)
  · exact startsFit_of_calls rfl

theorem startsFit_progress {amount : Float} {held : Bool}
    (h : p.progress now id w amount = .ok (held, p')) : StartsFit op p p' := by
  unfold progress at h
  split at h
  · obtain ⟨answer, -, h⟩ := Refusal.of_bind_eq_ok h
    cases answer with
    | none =>
      cases h
      exact startsFit_of_calls rfl
    | some l =>
      simp only at h
      split at h
      · cases h
        exact startsFit_of_calls rfl
      · cases h
        exact startsFit_of_calls rfl
  · cases h

theorem find?_cacheMetadata (b : Build) (o : Outcome) :
    (cacheMetadata b o).find? "build_id" = some ("build_id", b.id.text) := by
  rw [cacheMetadata, Catalog.ofList, Catalog.find?_foldl_insert, Catalog.find?_empty,
    Option.or_none]
  simp

/-- What the announcement of a completed build starts. -/
theorem calls_announceCompletion {b : Build} {o : Outcome} (p : Pool) (now : Instant)
    (hb : b.outcome = some o) :
    (p.announceCompletion now b).calls = p.calls ∨
      (b.cacheEnabled = true ∧ b.status = .completed ∧ (p.announceCompletion now b).calls =
        p.calls ++ [.store b.cacheKey o.artifacts (cacheMetadata b o)]) := by
  unfold announceCompletion
  rw [hb, Option.getD_some]
  simp only
  split
  · rename_i hstores
    simp only [Bool.and_eq_true, beq_iff_eq] at hstores
    exact .inr ⟨hstores.1.1, hstores.1.2, rfl⟩
  · exact .inl rfl

theorem startsFit_complete {r : Report} {held : Bool}
    (h : p.complete now id r = .ok (held, p')) : StartsFit (.complete now id r) p p' := by
  obtain ⟨answer, hl, h⟩ := Refusal.of_bind_eq_ok h
  cases answer with
  | none =>
    cases h
    exact startsFit_of_calls rfl
  | some l =>
    simp only at h
    split at h
    · cases h
      exact startsFit_of_calls (calls_free _ _ _)
    · rename_i b hb
      cases h
      obtain ⟨c, hc, hheld, rfl⟩ := eq_finish_of_complete hl hb
      obtain rfl := id_of_find? hc
      rcases calls_announceCompletion ({ p with ledger := l }.free r.worker c.id) now
        (b := c.finish (verdict r).1 (verdict r).2 now) rfl with hsame | ⟨hcached, hend, hcalls⟩
      · rw [calls_free] at hsame
        exact startsFit_of_calls hsame
      · rw [calls_free] at hcalls
        obtain ⟨hsuccess, hartifacts⟩ := success_of_verdict hend
        refine .inr ⟨_, hcalls, now, r, c.finish (verdict r).1 (verdict r).2 now, rfl, ?_⟩
        constructor
        case held => exact ⟨c, hc, hheld⟩
        case success => exact hsuccess
        case brought => exact hartifacts.symm
        case recorded =>
          rw [(tables_announceCompletion _ _ _).1, ledger_free]
          exact hb
        case made => exact ⟨hcached, hend, rfl⟩
        case underKey => rfl
        case named => exact find?_cacheMetadata _ _
        case called => exact hcalls

theorem calls_announceScan (p : Pool) (now : Instant) (scan : Scan) :
    (p.announceScan now scan).calls = p.calls := by
  unfold announceScan
  split
  · rfl
  · simp only
    split
    · exact (calls_foldl_publish _ _ _).trans (calls_foldl_publish _ _ _)
    · exact (calls_foldl_publish _ _ _).trans (calls_foldl_publish _ _ _)

end Pool

namespace Course

variable {c d : Course} {op : Op} {id : BuildId} {key : String} {artifacts : List String}
  {metadata : Dictionary} {b : Build}

/-- An operation starts at most one call, or forgets all of them. -/
theorem calls_after (h : c.Sound) (hadmits : c.Admits op) :
    Pool.StartsFit op c.pool (c.after op).pool ∨ (c.after op).pool.calls = [] := by
  have hrefused : Pool.StartsFit op c.pool c.pool := Pool.startsFit_of_calls rfl
  cases op with
  | submit now r id =>
    simp only [after]
    split
    · rename_i b p hp
      refine .inl (Pool.startsFit_submitAs ?_ hp)
      cases hfind : c.pool.ledger.find? id with
      | none => rfl
      | some b => exact absurd (h.pool.ledger.records.numbered id b hfind).mem hadmits
    · exact .inl hrefused
  | cancel now id => exact .inl (of_enter hrefused fun a p hp => Pool.startsFit_cancel hp)
  | progress now id w amount =>
    exact .inl (of_enter hrefused fun a p hp => Pool.startsFit_progress hp)
  | complete now id r => exact .inl (of_enter hrefused fun a p hp => Pool.startsFit_complete hp)
  | satisfy now id artifacts =>
    refine .inl (Pool.startsFit_of_calls ?_)
    simp only [after, Pool.satisfy]
    split <;> rfl
  | register now info =>
    refine .inl (of_enter hrefused fun a p hp => Pool.startsFit_of_calls ?_)
    obtain ⟨⟨w, roster⟩, -, hp⟩ := Refusal.of_bind_eq_ok hp
    cases hp
    rfl
  | heartbeat now w usage =>
    refine .inl (of_enter hrefused fun a p hp => Pool.startsFit_of_calls ?_)
    obtain ⟨⟨revived, roster⟩, -, hp⟩ := Refusal.of_bind_eq_ok (eq_ok_of_map hp)
    simp only at hp
    split at hp
    · cases hp
      rfl
    · cases hp
      rfl
  | pass now => exact .inl (Pool.startsFit_of_calls rfl)
  | delivered now place =>
    refine .inl (Pool.startsFit_of_calls ?_)
    simp only [after]
    split
    · simp only [Pool.delivered]
      split <;> rfl
    · rfl
  | undelivered place =>
    refine .inl (Pool.startsFit_of_calls ?_)
    simp only [after]
    split
    · simp only [Pool.undelivered]
      split
      · rfl
      · exact Pool.calls_free _ _ _
    · rfl
  | wake | takeWakeUp | takeSaveRequest => exact .inl (Pool.startsFit_of_calls rfl)
  | scan now judged => exact .inl (Pool.startsFit_of_calls (Pool.calls_announceScan _ _ _))
  | restart now config caching => exact .inr rfl

/-- In the course that led here a worker reported the build completed, and what it had made was
given to the cache under this key. -/
structure Stored (d : Course) (a : Build) (key : String) (artifacts : List String)
    (metadata : Dictionary) : Prop where
  given : a.id ∈ d.given
  /-- The record of the build is the one that the report left. -/
  reported : ∃ (e : Course) (now : Instant) (r : Report) (ops : List Op), e.Reachable ∧
    Run (e.after (.complete now a.id r)) ops d ∧
    e.pool.Stores (e.after (.complete now a.id r)).pool r a key artifacts metadata
  /-- As long as the build is there it is as it was then. -/
  kept : ∀ x, d.pool.ledger.find? a.id = some x → x = a

theorem Stored.made {a : Build} (h : d.Stored a key artifacts metadata) : a.Made artifacts := by
  obtain ⟨_, _, _, _, _, _, hstores⟩ := h.reported
  exact hstores.made

theorem Stored.underKey {a : Build} (h : d.Stored a key artifacts metadata) : a.cacheKey = key := by
  obtain ⟨_, _, _, _, _, _, hstores⟩ := h.reported
  exact hstores.underKey

/-- A call that fitted once says the same of the builds as they are now. -/
def CallHolds (c : Course) : Call → Prop
  | .lookUp id key => id ∈ c.given ∧
    ∀ b, c.pool.ledger.find? id = some b → b.cacheEnabled = true ∧ b.cacheKey = key
  | .store key artifacts metadata => ∃ a, c.Stored a key artifacts metadata
  | .abandon .. => True

theorem stored_after_report {a : Build} {now : Instant} {r : Report} (h : c.Reachable)
    (hstores : c.pool.Stores (c.after (.complete now a.id r)).pool r a key artifacts metadata) :
    (c.after (.complete now a.id r)).Stored a key artifacts metadata := by
  have hsound := (h.after (.complete now a.id r) trivial).sound
  constructor
  case given => exact (hsound.pool.ledger.records.numbered a.id a hstores.recorded).mem
  case reported => exact ⟨c, now, r, [], h, .nil, hstores⟩
  case kept =>
    intro x hx
    rw [hstores.recorded] at hx
    cases hx
    rfl

theorem Stored.after {a : Build} (hstored : c.Stored a key artifacts metadata) (h : c.Sound)
    (hadmits : c.Admits op) : (c.after op).Stored a key artifacts metadata := by
  obtain ⟨e, now, r, ops, he, hrun, hstores⟩ := hstored.reported
  constructor
  case given => exact (given_after c op).subset hstored.given
  case reported => exact ⟨e, now, r, ops ++ [op], he, hrun.snoc hadmits, hstores⟩
  case kept =>
    intro x hx
    obtain ⟨before, hbefore, -, hfrozen⟩ := evolves_after h hadmits a.id hstored.given x hx
    obtain rfl := hstored.kept before hbefore
    exact hfrozen hstored.made.isTerminal

theorem callHolds_of_fits {call : Call} (h : c.Reachable) (hadmits : c.Admits op)
    (hfits : call.Fits op c.pool (c.after op).pool) : (c.after op).CallHolds call := by
  cases call with
  | lookUp id key =>
    obtain ⟨b, hb, hasks⟩ := hfits
    have hrecords := (h.after op hadmits).sound.pool.ledger.records
    refine ⟨(hrecords.numbered id b hb).mem, fun x hx => ?_⟩
    rw [hb] at hx
    cases hx
    exact hasks
  | store key artifacts metadata =>
    obtain ⟨now, r, a, rfl, hstores⟩ := hfits
    exact ⟨a, stored_after_report h hstores⟩
  | abandon => trivial

theorem callHolds_after {call : Call} (h : c.Sound) (hadmits : c.Admits op)
    (hholds : c.CallHolds call) : (c.after op).CallHolds call := by
  cases call with
  | lookUp id key =>
    obtain ⟨hid, hasks⟩ := hholds
    refine ⟨(given_after c op).subset hid, fun b hb => ?_⟩
    obtain ⟨x, hx, hsame, -⟩ := evolves_after h hadmits id hid b hb
    rw [Build.cacheKey_eq_of_submission hsame, Build.cacheEnabled_eq_of_submission hsame]
    exact hasks x hx
  | store key artifacts metadata =>
    obtain ⟨a, hstored⟩ := hholds
    exact ⟨a, hstored.after h hadmits⟩
  | abandon => trivial

theorem Reachable.callHolds (h : c.Reachable) : ∀ call ∈ c.pool.calls, c.CallHolds call := by
  refine (h.induct (P := fun c => c.Reachable ∧ ∀ call ∈ c.pool.calls, c.CallHolds call)
    (fun config caching => ⟨⟨config, caching, [], .nil⟩, fun call hcall => by cases hcall⟩)
    fun c op hc hadmits => ⟨hc.1.after op hadmits, fun call hcall => ?_⟩).2
  obtain ⟨hreachable, hcalls⟩ := hc
  have hsound := hreachable.sound
  rcases calls_after hsound hadmits with (heq | ⟨new, heq, hfits⟩) | hnone
  · rw [heq] at hcall
    exact callHolds_after hsound hadmits (hcalls call hcall)
  · rw [heq, List.mem_append, List.mem_singleton] at hcall
    rcases hcall with hcall | rfl
    · exact callHolds_after hsound hadmits (hcalls call hcall)
    · exact callHolds_of_fits hreachable hadmits hfits
  · rw [hnone] at hcall
    cases hcall

/-- A build that the cache completes is completed with the artifacts that it gave. -/
theorem made_after_satisfy {now : Instant} (h : c.Reachable)
    (hlookUp : .lookUp id key ∈ c.pool.calls)
    (hdone : (c.pool.satisfy now id artifacts).1 = true) :
    ∃ b, (c.after (.satisfy now id artifacts)).pool.ledger.find? id = some b ∧
      b.Made artifacts ∧ b.cacheKey = key := by
  obtain ⟨-, hasks⟩ := h.callHolds _ hlookUp
  simp only [Course.after]
  unfold Pool.satisfy at hdone ⊢
  split at hdone
  · cases hdone
  · rename_i l hl
    obtain ⟨b, hb, hqueued, rfl⟩ := satisfy?_eq_some hl
    obtain rfl := id_of_find? hb
    obtain ⟨hcached, hkey⟩ := hasks b hb
    have hends : ListsEnds { c.pool.ledger with
        counters := { c.pool.ledger.counters with
          cacheHits := c.pool.ledger.counters.cacheHits + 1 } } :=
      h.sound.pool.ledger.records.listsEnds
    have hopen : b.isTerminal = false := by
      rw [Build.isTerminal, hqueued]
      rfl
    have hfound := find?_archive_self (c := b.finish .completed { success := true, artifacts } now)
      hends hb hopen h.limited.one_le_historyLimit
    exact ⟨_, hfound, ⟨hcached, rfl, rfl⟩, hkey⟩

/-- What one pool asks for, and what it is given when another stored it. -/
structure AnswersFit (c d : Course) : Prop where
  asked : ∀ id key b, .lookUp id key ∈ c.pool.calls → c.pool.ledger.find? id = some b →
    b.cacheEnabled = true ∧ b.cacheKey = key
  stored : ∀ key artifacts metadata, .store key artifacts metadata ∈ d.pool.calls →
    ∃ a, d.Stored a key artifacts metadata
  /-- What is found for a build was made for a build that is made alike. -/
  found : ∀ id key b a artifacts metadata, .lookUp id key ∈ c.pool.calls →
    c.pool.ledger.find? id = some b → d.Stored a key artifacts metadata → a.MadeAlike b
  /-- So is the build that is completed with it, and that is how the build stays. -/
  completed : ∀ now id key a artifacts metadata, .lookUp id key ∈ c.pool.calls →
    d.Stored a key artifacts metadata → (c.pool.satisfy now id artifacts).1 = true →
    ∃ b, (c.after (.satisfy now id artifacts)).pool.ledger.find? id = some b ∧
      b.Made artifacts ∧ a.MadeAlike b ∧
      ∀ ops e, Run (c.after (.satisfy now id artifacts)) ops e →
        ∀ x, e.pool.ledger.find? id = some x → x = b

theorem Reachable.answersFit (hc : c.Reachable) (hd : d.Reachable) : c.AnswersFit d := by
  have hasked : ∀ id key b, .lookUp id key ∈ c.pool.calls → c.pool.ledger.find? id = some b →
      b.cacheEnabled = true ∧ b.cacheKey = key :=
    fun id key b hcall hb => (hc.callHolds _ hcall).2 b hb
  constructor
  case asked => exact hasked
  case stored => exact fun key artifacts metadata hcall => hd.callHolds _ hcall
  case found =>
    intro id key b a artifacts metadata hlookUp hb hstored
    have hkey := (hasked id key b hlookUp hb).2
    exact Build.madeAlike_of_cacheKey_eq (hstored.underKey.trans hkey.symm)
  case completed =>
    intro now id key a artifacts metadata hlookUp hstored hdone
    obtain ⟨b, hb, hmade, hkey⟩ := made_after_satisfy hc hlookUp hdone
    refine ⟨b, hb, hmade, Build.madeAlike_of_cacheKey_eq (hstored.underKey.trans hkey.symm), ?_⟩
    intro ops e hrun x hx
    have hsound := (hc.after (.satisfy now id artifacts) trivial).sound
    exact (hrun.of_find? hsound hb hx).2 hmade.isTerminal

/-- Of any two builds the key tells the pieces, and what a pool finds in the cache fits as far as
the key tells. -/
theorem cache_tells (hc : c.Reachable) (hd : d.Reachable) (a b : Build) :
    a.KeyTells b ∧ c.AnswersFit d :=
  ⟨Build.keyTells a b, hc.answersFit hd⟩

/-- A build is looked up in the cache. -/
def asking : Course :=
  (start {} true).after
    (.submit ⟨0, 0⟩ { project := "p", task := "t", cacheEnabled := true } ⟨"a"⟩)

/-- A worker completes the build, and its artifacts are stored in the cache. -/
def oneCached : Course :=
  ((asking.after (.register ⟨1, 0⟩ { id := ⟨"w"⟩, address := "x", capacity := 1 })).after
    (.pass ⟨2, 0⟩)).after
    (.complete ⟨3, 0⟩ ⟨"a"⟩ { worker := ⟨"w"⟩, success := true, artifacts := ["out"] })

theorem reachable_asking : asking.Reachable := by
  have hstart : (start {} true).Reachable := ⟨{}, true, [], .nil⟩
  exact hstart.after _ List.not_mem_nil

theorem reachable_oneCached : oneCached.Reachable := by
  have hworker := reachable_asking.after
    (.register ⟨1, 0⟩ { id := ⟨"w"⟩, address := "x", capacity := 1 }) trivial
  exact (hworker.after (.pass ⟨2, 0⟩) trivial).after _ trivial

theorem cache_tells_oneCached : oneCached.pool.calls.length = 2 ∧
    (asking.pool.satisfy ⟨4, 0⟩ ⟨"a"⟩ ["out"]).1 = true ∧
    Build.equalsInValue.KeyTells Build.equalsInName ∧ asking.AnswersFit oneCached := by
  have htells := cache_tells reachable_asking reachable_oneCached
    Build.equalsInValue Build.equalsInName
  exact ⟨by decide +kernel, by decide +kernel, htells⟩

end Course

end BuildPool
