import BuildPool.Proofs.Pool.Retries

/-!
# Retries under changing limits

A restart may bring a lower limit than the retries that a build already had. The next loss fails the
build and sets its count to the limit of then, so the count falls. Nothing else lowers it, and never
below the lowest limit.
-/

namespace BuildPool

open BuildPool.Time Ledger

/-- A restart under this limit or a higher one, or no restart at all. -/
def Op.AllowsAtLeast (n : Nat) (op : Op) : Prop :=
  ∀ now config caching, op = .restart now config caching → n ≤ config.maxRetries

namespace Course

variable {c d : Course} {op : Op} {ops : List Op} {id : BuildId} {b b' : Build} {n : Nat}

/-- The build lost its worker once too often, and its count is brought down to the limit. -/
structure CutBack (c : Course) (op : Op) (b b' : Build) : Prop where
  lost : b.id ∈ c.lostBy op
  failed : b'.status = .failed
  reason : b'.error? = some "max retries exceeded"
  limit : b'.retries = (c.after op).pool.config.maxRetries
  lower : b'.retries < b.retries

theorem retries_le_or_cutBack (h : c.Sound) (hlimited : c.Limited) (hadmits : c.Admits op)
    (hb : c.pool.ledger.find? id = some b) (hb' : (c.after op).pool.ledger.find? id = some b') :
    b.retries ≤ b'.retries ∨ c.CutBack op b b' := by
  have hlimit := (limited_after h hadmits hlimited).retries
  by_cases hlost : id ∈ c.lostBy op
  · by_cases hleft : b.retries < (c.after op).pool.ledger.maxRetries
    · have hback := requeued_after h hlimited hlost hb hleft
      rw [hb'] at hback
      cases hback
      exact .inl (Nat.le_succ b.retries)
    · obtain ⟨-, -, x, -, hfailed, hreason, hretries, hsame⟩ :=
        failed_after h hlimited hlost hb (Nat.le_of_not_lt hleft)
      obtain rfl := hsame b' hb'
      rcases Nat.lt_or_ge b'.retries b.retries with hlower | hle
      · exact .inr ⟨id_of_find? hb ▸ hlost, hfailed, hreason, hretries.trans hlimit, hlower⟩
      · exact .inl hle
  · rw [retries_after h hlimited hadmits hlost hb hb']
    exact .inl (Nat.le_refl _)

theorem Run.le_limit (hrun : Run c ops d) (hn : n ≤ c.pool.config.maxRetries)
    (hallows : ∀ op ∈ ops, op.AllowsAtLeast n) : n ≤ d.pool.config.maxRetries := by
  induction hrun with
  | nil => exact hn
  | @snoc ops d op hrun hadmits ih =>
    have hbefore := ih fun op hop => hallows op (List.mem_append_left _ hop)
    by_cases hop : ∃ now config caching, op = .restart now config caching
    · obtain ⟨now, config, caching, rfl⟩ := hop
      exact hallows _ (List.mem_append_right _ List.mem_cons_self) now config caching rfl
    · rw [config_after d fun now config caching heq => hop ⟨now, config, caching, heq⟩]
      exact hbefore

theorem Run.min_retries_le (h : c.Sound) (hlimited : c.Limited) (hrun : Run c ops d)
    (hn : n ≤ c.pool.config.maxRetries) (hallows : ∀ op ∈ ops, op.AllowsAtLeast n)
    (hb : c.pool.ledger.find? id = some b) (hb' : d.pool.ledger.find? id = some b') :
    min n b.retries ≤ b'.retries := by
  have hid := (h.pool.ledger.records.numbered id b hb).mem
  induction hrun generalizing b' with
  | nil =>
    rw [hb] at hb'
    cases hb'
    exact Nat.min_le_right n b.retries
  | @snoc ops d op hrun hadmits ih =>
    have hsound := hrun.sound h
    obtain ⟨x, hx, -⟩ := (changes_after hsound hadmits).former id
      (hrun.given_prefix.subset hid) b' hb'
    have hbefore := ih (fun op hop => hallows op (List.mem_append_left _ hop)) hx
    rcases retries_le_or_cutBack hsound (hrun.limited h hlimited) hadmits hx hb'
      with hle | hcut
    · exact Nat.le_trans hbefore hle
    · have hlimit := (hrun.snoc hadmits).le_limit hn hallows
      rw [← hcut.limit] at hlimit
      exact Nat.le_trans (Nat.min_le_left n b.retries) hlimit

/-! ## All of it -/

/-- How the count of a build can fall, and how far. -/
structure BoundsFalls (c : Course) : Prop where
  /-- Only the loss that fails a build can lower its count, and then to the limit in force. -/
  step : ∀ op id b b', c.Admits op → c.pool.ledger.find? id = some b →
    (c.after op).pool.ledger.find? id = some b' → b.retries ≤ b'.retries ∨ c.CutBack op b b'
  /-- Under limits of at least `n`, a count of up to `n` never falls. -/
  run : ∀ ops d n id b b', Run c ops d → n ≤ c.pool.config.maxRetries →
    (∀ op ∈ ops, op.AllowsAtLeast n) → c.pool.ledger.find? id = some b →
    d.pool.ledger.find? id = some b' → min n b.retries ≤ b'.retries

/-- In every reachable pool a count falls only when its build fails for it. -/
theorem retries_fall_to_limit (h : c.Reachable) : c.BoundsFalls where
  step _ _ _ _ hadmits hb hb' := retries_le_or_cutBack h.sound h.limited hadmits hb hb'
  run _ _ _ _ _ _ hrun hn hallows hb hb' :=
    hrun.min_retries_le h.sound h.limited hn hallows hb hb'

/-- A build came back to the queue once, and is with a worker again. -/
def triedTwice : Course :=
  [.submit ⟨0, 0⟩ { project := "p", task := "t" } ⟨"a"⟩,
    .register ⟨1, 0⟩ { id := ⟨"w"⟩, address := "x", capacity := 1 },
    .pass ⟨2, 0⟩,
    .restart ⟨3, 0⟩ { maxRetries := 1 } false,
    .heartbeat ⟨4, 0⟩ ⟨"w"⟩ {},
    .pass ⟨5, 0⟩].foldl Course.after (start { maxRetries := 1 } false)

theorem reachable_triedTwice : triedTwice.Reachable :=
  ⟨{ maxRetries := 1 }, false, _,
    run_foldl ⟨List.not_mem_nil, trivial, trivial, trivial, trivial, trivial, trivial⟩⟩

theorem retries_fall_to_limit_triedTwice :
    (triedTwice.pool.ledger.find? ⟨"a"⟩).map Build.retries = some 1 ∧ triedTwice.BoundsFalls :=
  ⟨by cbv, retries_fall_to_limit reachable_triedTwice⟩

/-- A restart that allows no retries lowers the count of a build that had one. -/
theorem retries_fall : ¬ ∀ (c : Course) (op : Op) (id : BuildId) (b b' : Build),
    c.Reachable → c.Admits op → c.pool.ledger.find? id = some b →
    (c.after op).pool.ledger.find? id = some b' → b.retries ≤ b'.retries := by
  intro hgrows
  have hbefore : (triedTwice.pool.ledger.find? ⟨"a"⟩).map Build.retries = some 1 := by cbv
  have hafter : ((triedTwice.after (.restart ⟨6, 0⟩ { maxRetries := 0 } false)).pool.ledger.find?
      ⟨"a"⟩).map Build.retries = some 0 := by cbv
  obtain ⟨b, hb, hone⟩ := Option.map_eq_some_iff.1 hbefore
  obtain ⟨b', hb', hzero⟩ := Option.map_eq_some_iff.1 hafter
  have hle := hgrows triedTwice (.restart ⟨6, 0⟩ { maxRetries := 0 } false) ⟨"a"⟩ b b'
    reachable_triedTwice trivial hb hb'
  omega

end Course

end BuildPool
