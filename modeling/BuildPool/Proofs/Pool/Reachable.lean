import BuildPool.Proofs.Pool.Pass

/-!
# Reachable pools

Whatever happens to a pool, and in whatever order, it stays sound.
-/

namespace BuildPool

open BuildPool.Time

namespace Course

structure Sound (c : Course) : Prop where
  fresh : c.given.Nodup
  pool : c.pool.Sound c.given

variable {c : Course}

/-! ## Every operation -/

theorem sound_start (config : Config) (caching : Bool) : (start config caching).Sound where
  fresh := List.nodup_nil
  pool := (Pool.sound_empty config).of_tables rfl rfl

theorem Sound.withPool {p : Pool} {outstanding : List Assignment} (h : c.Sound)
    (hp : p.Sound c.given) : { c with pool := p, outstanding }.Sound :=
  ⟨h.fresh, hp⟩

theorem sound_enter {α : Type} {result : Except Refusal (α × Pool)} (h : c.Sound)
    (hp : ∀ a p, result = .ok (a, p) → p.Sound c.given) : (c.enter result).Sound := by
  unfold enter
  split
  · rename_i a p
    exact h.withPool (hp a p rfl)
  · exact h

theorem sound_after {op : Op} (h : c.Sound) (hadmits : c.Admits op) : (c.after op).Sound := by
  cases op with
  | submit now r id =>
    simp only [after]
    split
    · rename_i b p hp
      refine ⟨?_, Pool.sound_submitAs h.pool hadmits hp⟩
      exact List.nodup_append.2 ⟨h.fresh, by simp, fun a ha b hb => by
        rw [List.mem_singleton.1 hb]
        exact fun heq => hadmits (heq ▸ ha)⟩
    · exact h
  | cancel now id => exact sound_enter h fun a p hp => Pool.sound_cancel h.pool hp
  | progress now id w amount => exact sound_enter h fun a p hp => Pool.sound_progress h.pool hp
  | complete now id r => exact sound_enter h fun a p hp => Pool.sound_complete h.pool hp
  | satisfy now id artifacts => exact h.withPool (Pool.sound_satisfy h.pool now id artifacts)
  | register now info => exact sound_enter h fun a p hp => Pool.sound_register h.pool hp
  | heartbeat now w usage =>
    exact sound_enter h fun a p hp => Pool.sound_heartbeat h.pool (eq_ok_of_map hp)
  | pass now => exact h.withPool (Pool.sound_pass h.pool now)
  | delivered now place =>
    simp only [after]
    split
    · exact h.withPool (Pool.sound_delivered h.pool now _)
    · exact h
  | undelivered place =>
    simp only [after]
    split
    · exact h.withPool (Pool.sound_undelivered h.pool _)
    · exact h
  | wake => exact h.withPool (h.pool.of_tables rfl rfl)
  | scan now judged => exact h.withPool (Pool.sound_scan h.pool now judged)
  | takeWakeUp => exact h.withPool (h.pool.of_tables rfl rfl)
  | takeSaveRequest => exact h.withPool (h.pool.of_tables rfl rfl)
  | restart now config caching =>
    exact h.withPool (Pool.sound_restarted h.pool now config caching)

theorem Reachable.sound (h : c.Reachable) : c.Sound :=
  h.induct sound_start fun _ _ hc hadmits => sound_after hc hadmits

end Course

end BuildPool
