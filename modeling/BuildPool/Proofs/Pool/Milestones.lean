import BuildPool.Proofs.Ledger.Chronicle
import BuildPool.Proofs.Pool.Stages

/-!
# Milestones in the course of a pool

Every operation but a restart takes the ledger on in steps that a chronicle can follow. So the
chronicle of a run is kept by adding what each operation brings.
-/

namespace BuildPool

open BuildPool.Time Ledger

/-! ## Builds that stay -/

namespace Ledger

variable {given : List BuildId} {l l' : Ledger} {b c : Build} {id : BuildId}

theorem Rewrites.stays (h : Rewrites l l' b c) (hopen : l.IsOpen id) :
    ∃ b', l'.find? id = some b' := by
  obtain ⟨x, hx, hxopen⟩ := hopen
  by_cases hid : id = c.id
  · exact ⟨c, hid ▸ h.after⟩
  · obtain rfl := id_of_find? hx
    exact ⟨x, (h.kept x hid (.inl hx)).find?_eq hxopen⟩

/-- A build that is open may end by a loss, and is kept then. -/
theorem follows_lose (h : Sound given l) (hlimit : 1 ≤ l.historyLimit) (id : BuildId)
    (w : WorkerId) (now : Instant) : Follows given given l (l.lose id w now).2 where
  subset := List.Subset.refl given
  former x hx b' hb' := by
    obtain ⟨b, hb, hchange⟩ := (changes_lose h.records id w now).former x hx b' hb'
    refine ⟨b, hb, ?_⟩
    rcases hchange with heq | hchange
    · exact .inl heq
    · exact .inr ⟨.loss, l.maxRetries, hchange⟩
  stays x hopen := by
    rcases rewrites_lose h.records hlimit id w now with heq | ⟨b, -, -, hrewrites, -⟩
    · rw [heq]
      exact ⟨_, hopen.choose_spec.1⟩
    · exact hrewrites.stays hopen
  known x b' hb' := ((sound_lose h id w now).1.records.numbered x b' hb').mem
  fresh x hx hnew := absurd hx hnew

theorem chronicle_losing {Before : BuildId → Prop} {ms : List Milestone} (h : Sound given l)
    (hlimit : 1 ≤ l.historyLimit) (hc : Chronicle Before ms given l) (now : Instant)
    (pairs : List (BuildId × WorkerId)) :
    Chronicle Before (ms ++ l.trail (losing now pairs l)) given (loseAll now pairs l).2 := by
  induction pairs generalizing l ms with
  | nil =>
    rw [losing, trail, List.append_nil]
    exact hc
  | cons pair rest ih =>
    obtain ⟨id, w⟩ := pair
    have hstep := hc.step (follows_lose h hlimit id w now)
    have hlimits := (limits_lose l id w now).2
    have hrest := ih (sound_lose h id w now).1 (by omega) hstep
    rw [losing, trail, ← List.append_assoc]
    exact hrest

end Ledger

theorem Op.Writes.stays {op : Op} {given : List BuildId} {l l' : Ledger} {id : BuildId}
    (hl : l.Sound given) (hlimit : 1 ≤ l.historyLimit) (h : op.Writes given l l')
    (hop : op.cause ≠ some .loss) (hopen : l.IsOpen id) : ∃ b', l'.find? id = some b' := by
  have hbefore := hopen
  obtain ⟨b, hb, -⟩ := hbefore
  cases h with
  | nothing => exact ⟨b, hb⟩
  | @submit now r new x _ fresh absent hs =>
    obtain ⟨-, hx, rfl⟩ := submit_eq_ok absent hs
    have hne : id ≠ x.id := by
      rw [hx]
      rintro rfl
      exact absurd (absent.symm.trans hb) (by simp)
    exact ⟨b, (find?_put_of_ne l x hne).trans hb⟩
  | cancel hs =>
    rcases rewrites_cancel hl.records hlimit hs with ⟨-, rfl⟩ | ⟨x, -, -, -, hrewrites⟩
    · exact ⟨b, hb⟩
    · exact hrewrites.stays hopen
  | progress hs =>
    obtain ⟨x, -, -, hrewrites⟩ := rewrites_progress hs
    exact hrewrites.stays hopen
  | complete hs =>
    obtain ⟨x, -, -, hrewrites⟩ := rewrites_complete hl.records hlimit hs
    exact hrewrites.stays hopen
  | satisfy hs =>
    obtain ⟨x, -, -, hrewrites⟩ := rewrites_satisfy? hl.records hlimit hs
    exact hrewrites.stays hopen
  | pass backlog waits once =>
    change ∃ b', (give _ _ l).find? id = some b'
    rcases find?_give _ waits once id with ⟨x, -, -, -, -, hgiven⟩ | hsame
    · exact ⟨_, hgiven⟩
    · exact ⟨b, hsame.trans hb⟩
  | delivered hs =>
    obtain ⟨x, -, -, hrewrites⟩ := rewrites_acknowledge? hs
    exact hrewrites.stays hopen
  | undelivered hs =>
    obtain ⟨x, hrewrites⟩ := rewrites_rollback? hs
    exact hrewrites.stays hopen
  | scan | restart => exact absurd rfl hop

namespace Course

variable {c d : Course} {op : Op} {ops : List Op} {id : BuildId} {ms : List Milestone}
  {Before : BuildId → Prop}

/-! ## Every operation -/

/-- What builds pass in the course of an operation. -/
def milestonesOf (c : Course) (op : Op) : List Milestone := c.pool.ledger.trail (c.stages op)

theorem milestonesOf_eq (hop : op.cause ≠ some .loss) :
    c.milestonesOf op = c.pool.ledger.milestones (c.after op).pool.ledger := by
  have hnone : c.during op = [] := by
    cases op with
    | scan | restart => exact absurd rfl hop
    | _ => rfl
  unfold milestonesOf stages
  rw [hnone, List.nil_append, trail, trail, List.append_nil]

theorem milestonesOf_scan (c : Course) (now judged : Instant) :
    c.milestonesOf (.scan now judged) =
      c.pool.ledger.trail (losing now (c.pool.overdue judged) c.pool.ledger) := by
  change c.pool.ledger.trail (losing now (c.pool.overdue judged) c.pool.ledger ++ [_]) = _
  rw [trail_losing, ledger_scan, milestones_self, List.append_nil]

/-- A build that just got its id waits. -/
theorem isOpen_of_given (h : c.Sound) (hadmits : c.Admits op) (hid : id ∈ (c.after op).given)
    (hnew : id ∉ c.given) : (c.after op).pool.ledger.IsOpen id := by
  cases op with
  | submit now r new =>
    simp only [after] at hid ⊢
    split at hid
    · rename_i b p hp
      have hsame : id = new := by
        rcases List.mem_append.1 hid with hold | hnew'
        · exact absurd hold hnew
        · exact List.mem_singleton.1 hnew'
      subst hsame
      obtain ⟨l, hl, hledger, -⟩ := Pool.submitAs_eq_ok hp
      obtain ⟨-, rfl, rfl⟩ := submit_eq_ok (h.pool.ledger.records.find?_eq_none hadmits) hl
      have hput := find?_put_self c.pool.ledger
        (.ofRequest r id c.pool.ledger.nextSequence now)
      dsimp only
      rw [hledger]
      exact ⟨_, hput, rfl⟩
    · exact absurd hid hnew
  | _ =>
    rcases given_after_cases c _ with heq | ⟨now, r, x, hop, -⟩
    · rw [heq] at hid
      exact absurd hid hnew
    · cases hop

theorem follows_after (h : c.Sound) (hlimited : c.Limited) (hadmits : c.Admits op)
    (hop : op.cause ≠ some .loss) :
    Follows c.given (c.after op).given c.pool.ledger (c.after op).pool.ledger where
  subset := (given_after c op).subset
  former id hid b' hb' := by
    obtain ⟨b, hb, hmakes⟩ := (changes_after h hadmits).former id hid b' hb'
    exact ⟨b, hb, hmakes.imp_right Op.Makes.change⟩
  stays id hopen := by
    have hlimit := hlimited.one_le_historyLimit
    exact (writes_after h hadmits).stays h.pool.ledger hlimit hop hopen
  known id b' hb' := ((sound_after h hadmits).pool.ledger.records.numbered id b' hb').mem
  fresh _ hid hnew := isOpen_of_given h hadmits hid hnew

theorem chronicle_after (h : c.Sound) (hlimited : c.Limited) (hadmits : c.Admits op)
    (hop : ∀ now config caching, op ≠ .restart now config caching)
    (hc : Chronicle Before ms c.given c.pool.ledger) :
    Chronicle Before (ms ++ c.milestonesOf op) (c.after op).given (c.after op).pool.ledger := by
  by_cases hloss : op.cause = some .loss
  · cases op with
    | scan now judged =>
      have hlimit := hlimited.one_le_historyLimit
      rw [milestonesOf_scan, ledger_scan]
      exact chronicle_losing h.pool.ledger hlimit hc now (c.pool.overdue judged)
    | restart now config caching => exact absurd rfl (hop now config caching)
    | _ => cases hloss
  · rw [milestonesOf_eq hloss]
    exact hc.step (follows_after h hlimited hadmits hloss)

/-! ## Every run -/

theorem Run.chronicle (h : c.Sound) (hlimited : c.Limited) (hrun : Run c ops d)
    (hops : ∀ op ∈ ops, ∀ now config caching, op ≠ .restart now config caching) :
    Chronicle (fun id => id ∈ c.given ∧ ¬ c.pool.ledger.IsOpen id) (c.along milestonesOf ops)
      d.given d.pool.ledger := by
  induction hrun with
  | nil => exact .empty h.pool.ledger.records
  | snoc hrun hadmits ih =>
    rw [hrun.along_snoc]
    have hbefore := ih fun op hop => hops op (List.mem_append_left _ hop)
    exact chronicle_after (hrun.sound h) (hrun.limited h hlimited) hadmits
      (hops _ (List.mem_append_right _ List.mem_cons_self)) hbefore

end Course

end BuildPool
