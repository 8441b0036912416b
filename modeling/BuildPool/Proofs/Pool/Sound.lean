import BuildPool.Proofs.Ledger.Restart
import BuildPool.Proofs.Pool.Course
import BuildPool.Proofs.Pool.Scans

/-!
# Sound pools

Ledger and roster both record which worker has which build. In a sound pool they agree. What a pool
publishes or starts beside that does not count.
-/

namespace BuildPool

open BuildPool.Time

/-- The workers hold exactly the builds that are with them by the ledger. -/
def Matched (l : Ledger) (r : Roster) : Prop := ∀ w id, r.Holds w id ↔ l.HeldBy id w

structure Agree (given : List BuildId) (l : Ledger) (r : Roster) : Prop where
  ledger : l.Sound given
  roster : r.Sound
  slots : Matched l r

namespace Pool

def Sound (given : List BuildId) (p : Pool) : Prop := Agree given p.ledger p.roster

variable {given : List BuildId} {p p' : Pool} {now : Instant} {id : BuildId} {w : WorkerId}

theorem Sound.of_tables (h : p.Sound given) (hledger : p'.ledger = p.ledger)
    (hroster : p'.roster = p.roster) : p'.Sound given := by
  unfold Sound
  rw [hledger, hroster]
  exact h

theorem sound_empty (config : Config) : (empty config).Sound [] where
  ledger := Ledger.Sound.empty config.maxRetries config.retainedHistory
  roster _ _ h := by cases h
  slots w id := by
    constructor
    · rintro ⟨_, h, -⟩; cases h
    · rintro ⟨_, h, -⟩; cases h

/-! ## News -/

theorem tables_foldl_publish {α : Type} (news : α → Event) (xs : List α) (p : Pool) :
    (xs.foldl (fun p x => p.publish (news x)) p).ledger = p.ledger ∧
      (xs.foldl (fun p x => p.publish (news x)) p).roster = p.roster := by
  induction xs generalizing p with
  | nil => exact ⟨rfl, rfl⟩
  | cons x rest ih => exact ih (p.publish (news x))

theorem tables_announceScan (p : Pool) (now : Instant) (scan : Scan) :
    (p.announceScan now scan).ledger = p.ledger ∧
      (p.announceScan now scan).roster = p.roster := by
  unfold announceScan
  have hoffline := tables_foldl_publish
    (fun w => .workerChanged w .offline now) scan.offline p
  have hfailed := tables_foldl_publish
    (fun b => .buildFinished b .failed 0 (some retriesExhausted) now) scan.failed
    (scan.offline.foldl (fun p w => p.publish (.workerChanged w .offline now)) p)
  split
  · exact ⟨rfl, rfl⟩
  · dsimp only
    split
    · exact ⟨hfailed.1.trans hoffline.1, hfailed.2.trans hoffline.2⟩
    · exact ⟨hfailed.1.trans hoffline.1, hfailed.2.trans hoffline.2⟩

theorem tables_announceCancellation (p : Pool) (now : Instant) (id : BuildId)
    (released : Option WorkerId) :
    (p.announceCancellation now id released).ledger = p.ledger ∧
      (p.announceCancellation now id released).roster = p.roster := by
  unfold announceCancellation
  dsimp only
  split
  · exact ⟨rfl, rfl⟩
  · split
    · exact ⟨rfl, rfl⟩
    · exact ⟨rfl, rfl⟩

theorem tables_announceCompletion (p : Pool) (now : Instant) (b : Build) :
    (p.announceCompletion now b).ledger = p.ledger ∧
      (p.announceCompletion now b).roster = p.roster := by
  unfold announceCompletion
  dsimp only
  split
  · exact ⟨rfl, rfl⟩
  · exact ⟨rfl, rfl⟩

/-! ## Freed slots -/

theorem ledger_free (p : Pool) (w : WorkerId) (b : BuildId) : (p.free w b).ledger = p.ledger := by
  unfold free
  split
  · rfl
  · rfl

theorem sound_free_roster (h : p.roster.Sound) (w : WorkerId) (b : BuildId) :
    (p.free w b).roster.Sound := by
  unfold free
  split
  · rename_i r hr
    exact Roster.sound_release h hr
  · exact h

/-- An unknown worker has no slot to free. -/
theorem holds_free {x : WorkerId} {y : BuildId} (p : Pool) (w : WorkerId) (b : BuildId) :
    (p.free w b).roster.Holds x y ↔ p.roster.Holds x y ∧ ¬ (x = w ∧ y = b) := by
  unfold free
  split
  · rename_i r hr
    exact Roster.holds_release hr
  · rename_i e he
    have hnone := Roster.find?_eq_none_of_release he
    constructor
    · refine fun hx => ⟨hx, ?_⟩
      rintro ⟨rfl, -⟩
      exact Roster.not_holds_of_find?_none hnone hx
    · exact And.left

/-- A build leaves the worker that holds it, and the slot of it is freed. -/
theorem Sound.leave {l : Ledger} (h : p.Sound given) (hl : l.Sound given)
    (hheld : p.ledger.HeldBy id w) (hleft : ∀ x y, l.HeldBy x y ↔ p.ledger.HeldBy x y ∧ x ≠ id) :
    ({ p with ledger := l }.free w id).Sound given where
  ledger := by rw [ledger_free]; exact hl
  roster := sound_free_roster (p := { p with ledger := l }) h.roster w id
  slots x y := by
    rw [ledger_free, holds_free, hleft]
    have hm := h.slots x y
    change p.roster.Holds x y ∧ ¬ (x = w ∧ y = id) ↔ p.ledger.HeldBy y x ∧ y ≠ id
    rw [hm]
    constructor
    · rintro ⟨hy, hne⟩
      refine ⟨hy, ?_⟩
      rintro rfl
      exact hne ⟨Ledger.heldBy_unique hy hheld, rfl⟩
    · rintro ⟨hy, hne⟩
      exact ⟨hy, fun heq => hne heq.2⟩

/-- The ledger changes, but not which builds are with workers. -/
theorem Sound.withLedger {given' : List BuildId} {l : Ledger} (h : p.Sound given)
    (hl : l.Sound given') (hheld : ∀ x y, l.HeldBy x y ↔ p.ledger.HeldBy x y) :
    { p with ledger := l }.Sound given' :=
  ⟨hl, h.roster, fun x y => (h.slots x y).trans (hheld y x).symm⟩

/-- The roster changes, but not which builds the workers hold. -/
theorem Sound.withRoster {r : Roster} (h : p.Sound given) (hr : r.Sound)
    (hheld : ∀ x y, r.Holds x y ↔ p.roster.Holds x y) : { p with roster := r }.Sound given :=
  ⟨h.ledger, hr, fun x y => (hheld x y).trans (h.slots x y)⟩

/-! ## Clients -/

theorem submitAs_eq_ok {r : Request} {b : Build} (h : p.submitAs now r id = .ok (b, p')) :
    ∃ l, p.ledger.submit r id now = .ok (b, l) ∧ p'.ledger = l ∧ p'.roster = p.roster := by
  obtain ⟨⟨b', l⟩, hl, h⟩ := Refusal.of_bind_eq_ok h
  simp only [pure, Except.pure, Except.ok.injEq, Prod.mk.injEq] at h
  obtain ⟨rfl, rfl⟩ := h
  refine ⟨l, hl, ?_⟩
  split
  · exact ⟨rfl, rfl⟩
  · exact ⟨rfl, rfl⟩

theorem sound_submitAs {r : Request} {b : Build} (h : p.Sound given) (hnew : id ∉ given)
    (hs : p.submitAs now r id = .ok (b, p')) : p'.Sound (given ++ [id]) := by
  obtain ⟨l, hl, hledger, hroster⟩ := submitAs_eq_ok hs
  have hsound := h.withLedger (Ledger.sound_submit h.ledger hnew hl)
    fun x y => Ledger.heldBy_submit h.ledger hnew hl
  exact hsound.of_tables hledger hroster

theorem cancel_eq_ok {answer : Cancellation} (h : p.cancel now id = .ok (answer, p')) :
    ∃ l, p.ledger.cancel id now = .ok (answer, l) ∧
      p' = if answer.changed then
          (match answer.released with
            | some w => { p with ledger := l }.free w id
            | none => { p with ledger := l }).announceCancellation now id answer.released
        else p := by
  obtain ⟨⟨answer', l⟩, hl, h⟩ := Refusal.of_bind_eq_ok h
  refine ⟨l, ?_⟩
  simp only at h
  split at h
  · rename_i hchanged
    cases h
    rw [if_pos hchanged]
    exact ⟨hl, rfl⟩
  · rename_i hsame
    cases h
    rw [if_neg hsame]
    exact ⟨hl, rfl⟩

theorem sound_cancel {answer : Cancellation} (h : p.Sound given)
    (hs : p.cancel now id = .ok (answer, p')) : p'.Sound given := by
  obtain ⟨l, hl, rfl⟩ := cancel_eq_ok hs
  obtain ⟨hsound, hheld, hreleased⟩ := Ledger.sound_cancel h.ledger hl
  split
  · rename_i hchanged
    have hleft : ∀ x y, l.HeldBy x y ↔ p.ledger.HeldBy x y ∧ x ≠ id := fun x y => by
      rw [hheld, hchanged]
      simp
    have hfree : Sound given (match answer.released with
        | some w => { p with ledger := l }.free w id
        | none => { p with ledger := l }) := by
      cases hr : answer.released with
      | some w => exact h.leave hsound ((hreleased hchanged w).1 hr) hleft
      | none =>
        refine h.withLedger hsound fun x y => (hleft x y).trans ?_
        constructor
        · exact And.left
        · refine fun hx => ⟨hx, ?_⟩
          rintro rfl
          rw [(hreleased hchanged y).2 hx] at hr
          cases hr
    exact hfree.of_tables (tables_announceCancellation _ _ _ _).1
      (tables_announceCancellation _ _ _ _).2
  · exact h

/-! ## Reports -/

theorem progress_eq_ok {amount : Float} {held : Bool}
    (h : p.progress now id w amount = .ok (held, p')) :
    p' = p ∨ ∃ l, p.ledger.progress id w amount = .ok (some l) ∧ p'.ledger = l ∧
      p'.roster = p.roster := by
  unfold progress at h
  split at h
  · obtain ⟨answer, hl, h⟩ := Refusal.of_bind_eq_ok h
    cases answer with
    | none =>
      cases h
      exact .inl rfl
    | some l =>
      refine .inr ⟨l, hl, ?_⟩
      simp only at h
      split at h
      · cases h
        exact ⟨rfl, rfl⟩
      · cases h
        exact ⟨rfl, rfl⟩
  · cases h

theorem sound_progress {amount : Float} {held : Bool} (h : p.Sound given)
    (hs : p.progress now id w amount = .ok (held, p')) : p'.Sound given := by
  rcases progress_eq_ok hs with rfl | ⟨l, hl, hledger, hroster⟩
  · exact h
  · obtain ⟨hsound, hheld⟩ := Ledger.sound_progress h.ledger hl
    exact (h.withLedger hsound hheld).of_tables hledger hroster

theorem complete_eq_ok {r : Report} {held : Bool}
    (h : p.complete now id r = .ok (held, p')) :
    p' = p ∨ ∃ l, p.ledger.complete id r now = .ok (some l) ∧
      p'.ledger = ({ p with ledger := l }.free r.worker id).ledger ∧
      p'.roster = ({ p with ledger := l }.free r.worker id).roster := by
  obtain ⟨answer, hl, h⟩ := Refusal.of_bind_eq_ok h
  cases answer with
  | none =>
    cases h
    exact .inl rfl
  | some l =>
    refine .inr ⟨l, hl, ?_⟩
    simp only at h
    split at h
    · cases h
      exact ⟨rfl, rfl⟩
    · cases h
      exact tables_announceCompletion _ _ _

theorem sound_complete {r : Report} {held : Bool} (h : p.Sound given)
    (hs : p.complete now id r = .ok (held, p')) : p'.Sound given := by
  rcases complete_eq_ok hs with rfl | ⟨l, hl, hledger, hroster⟩
  · exact h
  · obtain ⟨hsound, hleft, hheld⟩ := Ledger.sound_complete h.ledger hl
    exact (h.leave hsound hheld hleft).of_tables hledger hroster

theorem sound_satisfy (h : p.Sound given) (now : Instant) (id : BuildId)
    (artifacts : List String) : (p.satisfy now id artifacts).2.Sound given := by
  unfold satisfy
  split
  · exact h
  · rename_i l hl
    obtain ⟨hsound, hheld⟩ := Ledger.sound_satisfy? h.ledger hl
    exact (h.withLedger hsound hheld).of_tables rfl rfl

/-! ## Workers -/

theorem register_eq_ok {info : WorkerInfo} {worker : Worker}
    (h : p.register now info = .ok (worker, p')) :
    ∃ r, p.roster.register info now = .ok (worker, r) ∧ p'.ledger = p.ledger ∧ p'.roster = r := by
  obtain ⟨answer, hr, h⟩ := Refusal.of_bind_eq_ok h
  cases h
  exact ⟨answer.2, hr, rfl, rfl⟩

theorem sound_register {info : WorkerInfo} {worker : Worker} (h : p.Sound given)
    (hs : p.register now info = .ok (worker, p')) : p'.Sound given := by
  obtain ⟨r, hr, hledger, hroster⟩ := register_eq_ok hs
  have hsound := h.withRoster (Roster.sound_register h.roster hr)
    fun x y => Roster.holds_register hr
  exact hsound.of_tables hledger hroster

theorem heartbeat_eq_ok {usage : Usage} (h : p.heartbeat now w usage = .ok p') :
    ∃ revived r, p.roster.heartbeat w usage now = .ok (revived, r) ∧ p'.ledger = p.ledger ∧
      p'.roster = r := by
  obtain ⟨⟨revived, r⟩, hr, h⟩ := Refusal.of_bind_eq_ok h
  refine ⟨revived, r, hr, ?_⟩
  simp only at h
  split at h
  · cases h
    exact ⟨rfl, rfl⟩
  · cases h
    exact ⟨rfl, rfl⟩

theorem sound_heartbeat {usage : Usage} (h : p.Sound given)
    (hs : p.heartbeat now w usage = .ok p') : p'.Sound given := by
  obtain ⟨revived, r, hr, hledger, hroster⟩ := heartbeat_eq_ok hs
  have hsound := h.withRoster (Roster.sound_heartbeat h.roster hr)
    fun x y => Roster.holds_heartbeat hr
  exact hsound.of_tables hledger hroster

/-! ## Deliveries -/

theorem sound_delivered (h : p.Sound given) (now : Instant) (a : Assignment) :
    (p.delivered now a).Sound given := by
  unfold delivered
  split
  · exact h
  · rename_i l hl
    obtain ⟨hsound, hheld⟩ := Ledger.sound_acknowledge? h.ledger hl
    exact (h.withLedger hsound hheld).of_tables rfl rfl

theorem sound_undelivered (h : p.Sound given) (a : Assignment) :
    (p.undelivered a).Sound given := by
  unfold undelivered
  split
  · exact h
  · rename_i l hl
    obtain ⟨hsound, hleft⟩ := Ledger.sound_rollback? h.ledger hl
    obtain ⟨b, hb, hawaits, -⟩ := Ledger.rollback?_eq_some hl
    exact h.leave hsound ⟨b, hb, (Build.awaits_iff.1 hawaits).2.2⟩ hleft

/-! ## Lost workers -/

/-- The workers that fell silent hold nothing after a scan. -/
theorem holds_of_scanned {r r' : Roster} {lost : List WorkerId}
    (h : ∀ w, r'.find? w =
      if w ∈ lost then (r.find? w).map Worker.disconnect else r.find? w) :
    r'.Holds w id ↔ r.Holds w id ∧ w ∉ lost := by
  unfold Roster.Holds
  rw [h]
  by_cases hw : w ∈ lost
  · simp [hw, Worker.disconnect]
  · simp [hw]

theorem sound_scan (h : p.Sound given) (now judged : Instant) :
    (p.scan now judged).2.Sound given := by
  obtain ⟨roster, heq, -, hroster⟩ := p.scan_eq now judged
  obtain ⟨hsound, hheld⟩ := Ledger.sound_loseAll now (p.overdue judged) h.ledger
  have htables := tables_announceScan
    { p with ledger := (Ledger.loseAll now (p.overdue judged) p.ledger).2, roster } now
    (p.scan now judged).1
  rw [heq]
  refine Sound.of_tables (p := { p with ledger := _, roster }) ⟨hsound, ?_, ?_⟩
    htables.1 htables.2
  · intro w worker hw
    rw [hroster] at hw
    split at hw
    · obtain ⟨old, -, rfl⟩ := Option.map_eq_some_iff.1 hw
      exact Worker.sound_disconnect old
    · exact h.roster w worker hw
  · intro w id
    -- The ledger takes back just what the silent workers held.
    refine (holds_of_scanned hroster).trans ?_
    refine Iff.trans ?_ (hheld id w).symm
    rw [overdue, Roster.mem_holdings, h.slots w id]
    constructor
    · rintro ⟨hb, hkept⟩
      exact ⟨hb, fun hlost => hkept hlost.1⟩
    · rintro ⟨hb, hkept⟩
      exact ⟨hb, fun hlost => hkept ⟨hlost, hb⟩⟩

/-! ## Restarts -/

theorem sound_restarted (h : p.Sound given) (now : Instant) (config : Config) (caching : Bool) :
    (Course.restarted p now config caching).Sound given := by
  obtain ⟨hsound, hheld⟩ :=
    Ledger.sound_ofImage h.ledger config.maxRetries config.retainedHistory now
  refine ⟨hsound, Roster.sound_ofRecords p.roster.list, fun w id => ?_⟩
  have hfree := Roster.not_holds_ofRecords p.roster.list w id
  exact ⟨fun hw => absurd hw hfree, fun hw => absurd hw (hheld id w)⟩

end Pool

end BuildPool
