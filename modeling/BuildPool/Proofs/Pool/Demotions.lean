import BuildPool.Proofs.Ledger.Demotions
import BuildPool.Proofs.Pool.Stages

/-!
# Demotions

What a scan does from end to end: which workers it gives up, what becomes of each of their builds,
and that nothing else moves, but for the ended builds that the history has no room for any more.
-/

namespace BuildPool

open BuildPool.Time Ledger

/-! ## Silent workers -/

namespace Roster

theorem mem_stale_iff {r : Roster} {w : WorkerId} {judged : Instant} {limit : Int} :
    w ∈ r.stale judged limit ↔ ∃ worker, r.find? w = some worker ∧
      worker.status ≠ .offline ∧ limit < judged.since worker.lastHeartbeat := by
  unfold stale
  simp only [List.mem_map, List.mem_filter, Bool.and_eq_true, decide_eq_true_eq,
    Worker.isOnline_iff]
  constructor
  · rintro ⟨worker, ⟨hmem, hsilent⟩, rfl⟩
    exact ⟨worker, mem_list_iff.1 hmem, hsilent⟩
  · rintro ⟨worker, hworker, hsilent⟩
    obtain rfl := id_of_find? hworker
    exact ⟨worker, ⟨mem_list_iff.2 hworker, hsilent⟩, rfl⟩

theorem stale_ordered (r : Roster) (judged : Instant) (limit : Int) :
    (r.stale judged limit).Pairwise (· < ·) :=
  List.pairwise_map.2 (List.Pairwise.sublist List.filter_sublist r.workers.ordered)

end Roster

/-! ## Scans from end to end -/

namespace Pool

def withTimeout (p : Pool) (seconds : Nat) : Pool :=
  { p with config.heartbeatTimeout := seconds }

/-- The nanoseconds of silence that a timeout in seconds stands for, up to the longest duration. -/
def patience (seconds : Nat) : Int := (min (1000 * seconds) (Nat.pow 2 63 - 1) : Nat) * 1000000

theorem heartbeatTimeout_withTimeout (p : Pool) (seconds : Nat) :
    (p.withTimeout seconds).heartbeatTimeout = patience seconds := by
  rw [heartbeatTimeout, Config.heartbeatMillis_eq]
  rfl

/-- From one pool to the next the workers that were silent for longer than a limit, and only they,
were given up, and their builds, and only theirs, went back to the queue or failed. -/
structure Demotes (p : Pool) (limit : Int) (now judged : Instant) (scan : Scan) (q : Pool) :
    Prop where
  silent : ∀ w, w ∈ scan.offline ↔ ∃ worker, p.roster.find? w = some worker ∧
    worker.status ≠ .offline ∧ limit < judged.since worker.lastHeartbeat
  ordered : scan.offline.Pairwise (· < ·)
  once : (scan.requeued ++ scan.failed).Nodup
  taken : ∀ id, id ∈ scan.requeued ++ scan.failed ↔ ∃ w ∈ scan.offline, p.roster.Holds w id
  held : ∀ loss ∈ (loseAll now (p.overdue judged) p.ledger).1, loss.2 ≠ .notHeld
  requeued : ∀ id ∈ scan.requeued, ∃ b, p.ledger.find? id = some b ∧
    b.retries + 1 ≤ p.config.maxRetries ∧
    q.ledger.find? id = some { b with retries := b.retries + 1 }.requeue ∧
    b.entry ∈ q.ledger.drainQueued
  failed : ∀ id ∈ scan.failed, ∃ b ended, p.ledger.find? id = some b ∧
    p.config.maxRetries < b.retries + 1 ∧
    ended = { b with retries := p.config.maxRetries }.finish .failed
      (.failure "max retries exceeded") now ∧
    (∃ stage ∈ losing now (p.overdue judged) p.ledger, stage.find? id = some ended) ∧
    q.ledger.find? id = if id ∈ q.ledger.history then some ended else none
  history : q.ledger.history = (p.ledger.history ++ scan.failed).rtake p.config.retainedHistory
  others : ∀ id, id ∉ scan.requeued ++ scan.failed → q.ledger.find? id =
    if id ∈ p.ledger.history ∧ id ∉ q.ledger.history then none else p.ledger.find? id
  workers : ∀ w, q.roster.find? w =
    if w ∈ scan.offline then (p.roster.find? w).map fun worker =>
      { worker with status := .offline, active := Catalog.empty }
    else p.roster.find? w
  emptied : ∀ w ∈ scan.offline, ∀ id, ¬ q.roster.Holds w id
  spared : ∀ w worker, p.roster.find? w = some worker →
    judged.since worker.lastHeartbeat ≤ limit → w ∉ scan.offline ∧ q.roster.find? w = some worker

section
variable {given : List BuildId} {p : Pool} {id : BuildId} {w : WorkerId} {now judged : Instant}

theorem scan_offline (p : Pool) (now judged : Instant) :
    (p.scan now judged).1.offline = p.roster.stale judged p.heartbeatTimeout := by
  obtain ⟨-, -, hscan, -⟩ := p.scan_eq now judged
  rw [hscan]

theorem scan_losses (p : Pool) (now judged : Instant) :
    (p.scan now judged).1.requeued = requeuedIn (loseAll now (p.overdue judged) p.ledger).1 ∧
      (p.scan now judged).1.failed = failedIn (loseAll now (p.overdue judged) p.ledger).1 := by
  obtain ⟨-, -, hscan, -⟩ := p.scan_eq now judged
  rw [hscan]
  exact ⟨rfl, rfl⟩

theorem scan_roster (p : Pool) (now judged : Instant) (w : WorkerId) :
    (p.scan now judged).2.roster.find? w =
      if w ∈ (p.scan now judged).1.offline then (p.roster.find? w).map Worker.disconnect
      else p.roster.find? w := by
  obtain ⟨roster, heq, hscan, hroster⟩ := p.scan_eq now judged
  rw [p.scan_offline, ← hroster w, heq, (tables_announceScan _ _ _).2]

end

theorem demotes_scan {given : List BuildId} {p : Pool} (h : p.Sound given)
    (hlimits : Within p.config.maxRetries p.config.retainedHistory p.ledger)
    (now judged : Instant) :
    p.Demotes p.heartbeatTimeout now judged (p.scan now judged).1 (p.scan now judged).2 := by
  have hends := h.ledger.records.listsEnds
  have hroom : 1 ≤ p.ledger.historyLimit := hlimits.limit ▸ p.config.one_le_retainedHistory
  have hholding := holding_overdue h judged
  have hlosses := losses_loseAll now hends hholding
  obtain ⟨hrequeued, hfailed⟩ := p.scan_losses now judged
  have hperm := perm_losses now hends hholding
  have hsound := (sound_loseAll now (p.overdue judged) h.ledger).1
  have hmem : ∀ id, id ∈ (p.overdue judged).map Prod.fst ↔
      ∃ w ∈ (p.scan now judged).1.offline, p.roster.Holds w id := by
    intro id
    rw [p.scan_offline, List.mem_map]
    constructor
    · rintro ⟨⟨x, w⟩, hx, rfl⟩
      exact ⟨w, mem_overdue.1 hx⟩
    · rintro ⟨w, hw⟩
      exact ⟨(id, w), mem_overdue.2 hw, rfl⟩
  rw [← hrequeued, ← hfailed] at hperm
  constructor
  case silent =>
    intro w
    rw [p.scan_offline]
    exact Roster.mem_stale_iff
  case ordered =>
    rw [p.scan_offline]
    exact p.roster.stale_ordered judged p.heartbeatTimeout
  case once => exact hperm.nodup_iff.2 hholding.once
  case taken => exact fun id => hperm.mem_iff.trans (hmem id)
  case held => exact loss_ne_notHeld now hends hholding
  case requeued =>
    intro id hid
    rw [hrequeued, mem_requeued_iff hends hholding] at hid
    obtain ⟨w, b, hx, hb, hleft⟩ := hid
    have hfind := find?_loseAll_of_mem now h.ledger hroom hholding hx hb
    rw [Build.lost, if_pos (Nat.lt_of_succ_le hleft), shown, if_neg (fun hc => nomatch hc.1)]
      at hfind
    rw [p.scan_ledger]
    refine ⟨b, hb, hlimits.retries ▸ hleft, hfind, ?_⟩
    obtain rfl := id_of_find? hb
    rw [drainQueued_eq_queue hsound]
    have hwaits : { b with retries := b.retries + 1 }.requeue ∈
        (loseAll now (p.overdue judged) p.ledger).2.queue := mem_queue_iff.2 ⟨hfind, rfl⟩
    exact List.mem_map.2 ⟨_, hwaits, rfl⟩
  case failed =>
    intro id hid
    rw [hfailed, mem_failed_iff hends hholding] at hid
    obtain ⟨w, b, hx, hb, hspent⟩ := hid
    have hlost : b.lost p.ledger.maxRetries now =
        { b with retries := p.config.maxRetries }.finish .failed
          (.failure "max retries exceeded") now := by
      rw [Build.lost, if_neg (by omega), hlimits.retries]
      rfl
    have hstage := exists_losing now hends hroom hholding hx hb
    have hfind := find?_loseAll_of_mem now h.ledger hroom hholding hx hb
    rw [hlost] at hstage hfind
    refine ⟨b, _, hb, hlimits.retries ▸ hspent, rfl, hstage, ?_⟩
    rw [p.scan_ledger, hfind, shown]
    obtain rfl := id_of_find? hb
    by_cases hin : b.id ∈ (loseAll now (p.overdue judged) p.ledger).2.history
    · rw [if_neg (fun hc => hc.2 hin), if_pos hin]
    · rw [if_pos ⟨rfl, hin⟩, if_neg hin]
  case history =>
    rw [p.scan_ledger, hfailed]
    exact history_loseAll hlimits now (p.overdue judged)
  case others =>
    intro id hid
    rw [p.scan_ledger]
    exact find?_loseAll_of_not_mem now h.ledger fun hin => hid (hperm.mem_iff.2 hin)
  case workers => exact p.scan_roster now judged
  case emptied =>
    rintro w hw id ⟨worker, hworker, hbuild⟩
    rw [p.scan_roster, if_pos hw, Option.map_eq_some_iff] at hworker
    obtain ⟨old, -, rfl⟩ := hworker
    exact Catalog.not_mem_empty id hbuild
  case spared =>
    intro w worker hworker hrecent
    have hout : w ∉ (p.scan now judged).1.offline := by
      rw [p.scan_offline, Roster.mem_stale_iff]
      rintro ⟨x, hx, -, hsilent⟩
      rw [hworker] at hx
      cases hx
      omega
    exact ⟨hout, by rw [p.scan_roster, if_neg hout, hworker]⟩

end Pool

namespace Course

/-- Whatever the timeout is, and whenever the scan comes: the workers that were silent for longer
lose their builds, and all else stays. -/
theorem scan_demotes {c : Course} (h : c.Reachable) (seconds : Nat) (now judged : Instant) :
    let p := c.pool.withTimeout seconds
    p.Demotes (Pool.patience seconds) now judged (p.scan now judged).1 (p.scan now judged).2 := by
  intro p
  have hsound : p.Sound c.given := h.sound.pool.of_tables rfl rfl
  have hlimits : Within p.config.maxRetries p.config.retainedHistory p.ledger := h.limited
  rw [← c.pool.heartbeatTimeout_withTimeout seconds]
  exact Pool.demotes_scan hsound hlimits now judged

/-- A worker that runs a build falls silent; the build goes back to the queue. -/
theorem scan_demotes_twoBuilds :
    let p := (twoBuilds.after (.pass ⟨3, 0⟩)).pool.withTimeout 45
    (p.scan ⟨48, 1⟩ ⟨48, 1⟩).1 = ⟨[⟨"w"⟩], [⟨"b"⟩], []⟩ ∧
      p.Demotes (Pool.patience 45) ⟨48, 1⟩ ⟨48, 1⟩ (p.scan ⟨48, 1⟩ ⟨48, 1⟩).1
        (p.scan ⟨48, 1⟩ ⟨48, 1⟩).2 :=
  ⟨by decide, scan_demotes (reachable_twoBuilds.after (.pass ⟨3, 0⟩) trivial) 45 _ _⟩

end Course

end BuildPool
