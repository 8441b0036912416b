import BuildPool.Proofs.Pool.Writes

/-!
# What operations keep

Whatever an operation does to the tables, the configuration stays, and a wake-up that nobody took
yet is not lost. Only a restart brings another configuration and starts without a wake-up.
-/

namespace BuildPool

open BuildPool.Time Ledger

namespace Pool

/-- The configuration is the same, and a wake-up still waits to be taken. -/
structure Keeps (p p' : Pool) : Prop where
  config : p'.config = p.config
  wakeUp : p.wakeUp = true → p'.wakeUp = true

variable {p p' p'' : Pool} {now : Instant} {id : BuildId} {w : WorkerId}

theorem Keeps.refl (p : Pool) : p.Keeps p := ⟨rfl, id⟩

theorem Keeps.trans (h : p.Keeps p') (h' : p'.Keeps p'') : p.Keeps p'' :=
  ⟨h'.config.trans h.config, fun hw => h'.wakeUp (h.wakeUp hw)⟩

/-! ## News, calls and freed slots -/

theorem keeps_wake (p : Pool) : p.Keeps p.wake := ⟨rfl, fun _ => rfl⟩

theorem keeps_free (p : Pool) (w : WorkerId) (b : BuildId) : p.Keeps (p.free w b) := by
  unfold free
  split
  · exact ⟨rfl, id⟩
  · exact .refl p

theorem keeps_foldl_publish {α : Type} (news : α → Event) (xs : List α) (p : Pool) :
    p.Keeps (xs.foldl (fun p x => p.publish (news x)) p) := by
  induction xs generalizing p with
  | nil => exact .refl p
  | cons x rest ih =>
    have hone : p.Keeps (p.publish (news x)) := ⟨rfl, fun hw => hw⟩
    exact hone.trans (ih (p.publish (news x)))

theorem keeps_announceScan (p : Pool) (now : Instant) (scan : Scan) :
    p.Keeps (p.announceScan now scan) := by
  unfold announceScan
  split
  · exact .refl p
  · have hoffline := keeps_foldl_publish
      (fun w => .workerChanged w .offline now) scan.offline p
    have hfailed := keeps_foldl_publish
      (fun b => .buildFinished b .failed 0 (some retriesExhausted) now) scan.failed
      (scan.offline.foldl (fun p w => p.publish (.workerChanged w .offline now)) p)
    have hboth := hoffline.trans hfailed
    dsimp only
    split
    · exact ⟨hboth.config, hboth.wakeUp⟩
    · exact ⟨hboth.config, fun _ => rfl⟩

theorem keeps_announceCancellation (p : Pool) (now : Instant) (id : BuildId)
    (released : Option WorkerId) : p.Keeps (p.announceCancellation now id released) := by
  unfold announceCancellation
  cases released with
  | none => exact ⟨rfl, fun hw => hw⟩
  | some w =>
    dsimp only
    split
    · exact ⟨rfl, fun _ => rfl⟩
    · exact ⟨rfl, fun _ => rfl⟩

/-- A worker that let go of a build can take another. -/
theorem wakeUp_announceCancellation (p : Pool) (now : Instant) (id : BuildId) (w : WorkerId) :
    (p.announceCancellation now id (some w)).wakeUp = true := by
  unfold announceCancellation
  dsimp only
  split
  · rfl
  · rfl

theorem announceCompletion_wakeUp (p : Pool) (now : Instant) (b : Build) :
    (p.announceCompletion now b).config = p.config ∧
      (p.announceCompletion now b).wakeUp = true := by
  unfold announceCompletion
  dsimp only
  split
  · exact ⟨rfl, rfl⟩
  · exact ⟨rfl, rfl⟩

/-! ## Clients and reports -/

theorem submitAs_wakeUp {r : Request} {b : Build} (h : p.submitAs now r id = .ok (b, p')) :
    p'.config = p.config ∧ p'.wakeUp = true := by
  obtain ⟨⟨b', l⟩, -, h⟩ := Refusal.of_bind_eq_ok h
  simp only [pure, Except.pure, Except.ok.injEq, Prod.mk.injEq] at h
  obtain ⟨-, rfl⟩ := h
  split
  · exact ⟨rfl, rfl⟩
  · exact ⟨rfl, rfl⟩

theorem keeps_cancel {answer : Cancellation} (h : p.cancel now id = .ok (answer, p')) :
    p.Keeps p' := by
  obtain ⟨l, -, rfl⟩ := cancel_eq_ok h
  have hledger : p.Keeps { p with ledger := l } := ⟨rfl, fun hw => hw⟩
  split
  · refine Keeps.trans ?_ (keeps_announceCancellation _ now id _)
    split
    · exact hledger.trans (keeps_free _ _ id)
    · exact hledger
  · exact .refl p

theorem keeps_progress {amount : Float} {held : Bool}
    (h : p.progress now id w amount = .ok (held, p')) : p.Keeps p' := by
  unfold progress at h
  split at h
  · obtain ⟨answer, -, h⟩ := Refusal.of_bind_eq_ok h
    cases answer with
    | none =>
      cases h
      exact .refl p
    | some l =>
      simp only at h
      split at h
      · cases h
        exact ⟨rfl, fun hw => hw⟩
      · cases h
        exact ⟨rfl, fun hw => hw⟩
  · cases h

theorem keeps_complete {r : Report} {held : Bool}
    (h : p.complete now id r = .ok (held, p')) : p.Keeps p' := by
  obtain ⟨answer, -, h⟩ := Refusal.of_bind_eq_ok h
  cases answer with
  | none =>
    cases h
    exact .refl p
  | some l =>
    have hfree := keeps_free { p with ledger := l } r.worker id
    simp only at h
    split at h
    · cases h
      exact ⟨hfree.config, hfree.wakeUp⟩
    · rename_i b _
      cases h
      obtain ⟨hconfig, hwake⟩ := announceCompletion_wakeUp
        ({ p with ledger := l }.free r.worker id) now b
      exact ⟨hconfig.trans hfree.config, fun _ => hwake⟩

theorem keeps_satisfy (p : Pool) (now : Instant) (id : BuildId) (artifacts : List String) :
    p.Keeps (p.satisfy now id artifacts).2 := by
  unfold satisfy
  split
  · exact .refl p
  · exact ⟨rfl, fun hw => hw⟩

/-! ## Workers -/

theorem register_wakeUp {info : WorkerInfo} {worker : Worker}
    (h : p.register now info = .ok (worker, p')) : p'.config = p.config ∧ p'.wakeUp = true := by
  obtain ⟨answer, -, h⟩ := Refusal.of_bind_eq_ok h
  cases h
  exact ⟨rfl, rfl⟩

theorem keeps_heartbeat {usage : Usage} (h : p.heartbeat now w usage = .ok p') :
    p.Keeps p' := by
  obtain ⟨⟨revived, r⟩, -, h⟩ := Refusal.of_bind_eq_ok h
  simp only at h
  split at h
  · cases h
    exact ⟨rfl, fun _ => rfl⟩
  · cases h
    exact ⟨rfl, fun hw => hw⟩

theorem keeps_delivered (p : Pool) (now : Instant) (a : Assignment) :
    p.Keeps (p.delivered now a) := by
  unfold delivered
  split
  · exact .refl p
  · exact ⟨rfl, fun hw => hw⟩

theorem keeps_undelivered (p : Pool) (a : Assignment) : p.Keeps (p.undelivered a) := by
  unfold undelivered
  split
  · exact .refl p
  · rename_i l _
    have hfree := keeps_free { p with ledger := l } a.worker a.build
    exact ⟨hfree.config, hfree.wakeUp⟩

theorem keeps_scan (p : Pool) (now judged : Instant) : p.Keeps (p.scan now judged).2 := by
  unfold scan
  dsimp only
  refine Keeps.trans ?_ (keeps_announceScan _ now _)
  exact ⟨rfl, fun hw => hw⟩

end Pool

/-! ## Every operation -/

namespace Course

variable {c : Course} {op : Op}

theorem keeps_enter {α : Type} {result : Except Refusal (α × Pool)}
    (hp : ∀ a p, result = .ok (a, p) → c.pool.Keeps p) : c.pool.Keeps (c.enter result).pool :=
  of_enter (.refl c.pool) hp

theorem keeps_after (c : Course) (hop : op ≠ .takeWakeUp)
    (hrestart : ∀ now config caching, op ≠ .restart now config caching) :
    c.pool.Keeps (c.after op).pool := by
  cases op with
  | submit now r id =>
    simp only [after]
    split
    · rename_i b p hp
      obtain ⟨hconfig, hwake⟩ := Pool.submitAs_wakeUp hp
      exact ⟨hconfig, fun _ => hwake⟩
    · exact .refl c.pool
  | cancel now id => exact keeps_enter fun _ _ hp => Pool.keeps_cancel hp
  | progress now id w amount => exact keeps_enter fun _ _ hp => Pool.keeps_progress hp
  | complete now id r => exact keeps_enter fun _ _ hp => Pool.keeps_complete hp
  | satisfy now id artifacts => exact Pool.keeps_satisfy c.pool now id artifacts
  | register now info =>
    refine keeps_enter fun _ _ hp => ?_
    obtain ⟨hconfig, hwake⟩ := Pool.register_wakeUp hp
    exact ⟨hconfig, fun _ => hwake⟩
  | heartbeat now w usage => exact keeps_enter fun _ _ hp => Pool.keeps_heartbeat (eq_ok_of_map hp)
  | pass now => exact ⟨rfl, fun hw => hw⟩
  | delivered now place =>
    simp only [after]
    split
    · exact Pool.keeps_delivered c.pool now _
    · exact .refl c.pool
  | undelivered place =>
    simp only [after]
    split
    · exact Pool.keeps_undelivered c.pool _
    · exact .refl c.pool
  | wake => exact Pool.keeps_wake c.pool
  | scan now judged => exact Pool.keeps_scan c.pool now judged
  | takeWakeUp => exact absurd rfl hop
  | takeSaveRequest => exact ⟨rfl, fun hw => hw⟩
  | restart now config caching => exact absurd rfl (hrestart now config caching)

theorem config_after (c : Course)
    (hrestart : ∀ now config caching, op ≠ .restart now config caching) :
    (c.after op).pool.config = c.pool.config := by
  by_cases hop : op = .takeWakeUp
  · subst hop
    rfl
  · exact (keeps_after c hop hrestart).config

end Course

/-! ## Limits of the ledger -/

theorem Op.Writes.within {op : Op} {given : List BuildId} {l l' : Ledger}
    {maxRetries historyLimit : Nat} (h : op.Writes given l l')
    (hop : ∀ now config caching, op ≠ .restart now config caching)
    (hl : Within maxRetries historyLimit l) : Within maxRetries historyLimit l' := by
  cases h with
  | nothing => exact hl
  | submit fresh absent hs =>
    obtain ⟨-, -, rfl⟩ := submit_eq_ok absent hs
    exact ⟨hl.retries, hl.limit, hl.fits⟩
  | cancel hs =>
    obtain ⟨b, -, ⟨-, -, rfl⟩ | ⟨-, -, rfl⟩⟩ := cancel_eq_ok hs
    · exact hl
    · exact hl.archive _
  | progress hs =>
    obtain ⟨b, -, -, rfl⟩ := progress_eq_ok hs
    exact ⟨hl.retries, hl.limit, hl.fits⟩
  | complete hs =>
    obtain ⟨b, -, -, rfl⟩ := complete_eq_ok hs
    exact hl.archive _
  | satisfy hs =>
    obtain ⟨b, -, -, rfl⟩ := satisfy?_eq_some hs
    exact within_evict hl.retries hl.limit
  | pass backlog waits once =>
    rw [give_eq]
    exact ⟨hl.retries, hl.limit, hl.fits⟩
  | delivered hs =>
    obtain ⟨b, -, -, rfl⟩ := acknowledge?_eq_some hs
    exact ⟨hl.retries, hl.limit, hl.fits⟩
  | undelivered hs =>
    obtain ⟨b, -, -, rfl⟩ := rollback?_eq_some hs
    exact ⟨hl.retries, hl.limit, hl.fits⟩
  | scan pairs => exact hl.loseAll _ pairs
  | restart => exact absurd rfl (hop _ _ _)

namespace Course

variable {c : Course} {op : Op}

/-- The ledger keeps to the limits of the configuration. -/
def Limited (c : Course) : Prop :=
  Within c.pool.config.maxRetries c.pool.config.retainedHistory c.pool.ledger

theorem Limited.one_le_historyLimit (h : c.Limited) : 1 ≤ c.pool.ledger.historyLimit := by
  rw [h.limit]
  exact c.pool.config.one_le_retainedHistory

theorem limited_after (h : c.Sound) (hadmits : c.Admits op) (hlimited : c.Limited) :
    (c.after op).Limited := by
  by_cases hop : ∃ now config caching, op = .restart now config caching
  · obtain ⟨now, config, caching, rfl⟩ := hop
    exact within_ofImage c.pool.ledger.toImage config.maxRetries config.retainedHistory now
  · have hne : ∀ now config caching, op ≠ .restart now config caching :=
      fun now config caching heq => hop ⟨now, config, caching, heq⟩
    unfold Limited
    rw [config_after c hne]
    exact (writes_after h hadmits).within hne hlimited

theorem Reachable.limited (h : c.Reachable) : c.Limited := by
  refine (h.induct (P := fun c => c.Sound ∧ c.Limited) (fun config caching => ?_)
    fun c op hc hadmits => ?_).2
  · exact ⟨sound_start config caching, Within.empty config.maxRetries config.retainedHistory⟩
  · exact ⟨sound_after hc.1 hadmits, limited_after hc.1 hadmits hc.2⟩

end Course

end BuildPool
