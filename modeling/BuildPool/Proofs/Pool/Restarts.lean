import BuildPool.Proofs.Ledger.Demotions
import BuildPool.Proofs.Pool.Keeps

/-!
# Restarts

A pool that is captured and recovered under the same limits is the pool that lost all its workers at
once. Whoever looks at the builds, the queue or the workers cannot tell the two apart, and a second
restart changes nothing.
-/

namespace BuildPool

open BuildPool.Time Ledger

/-! ## All workers lost -/

namespace Roster

variable {r : Roster} {id : WorkerId} {w : Worker}

/-- Marks a worker offline, if it is known. -/
def loseContact (r : Roster) (w : Worker) : Roster :=
  match r.disconnect w.id with
  | .ok (_, roster) => roster
  | .error _ => r

def disconnectAll (r : Roster) : Roster := r.list.foldl loseContact r

theorem find?_loseContact (r : Roster) (w : Worker) (id : WorkerId) :
    (r.loseContact w).find? id =
      if id = w.id then (r.find? id).map Worker.disconnect else r.find? id := by
  unfold loseContact
  split
  · rename_i held roster h
    obtain ⟨x, hx, -, rfl⟩ := disconnect_eq_ok h
    have hid : x.disconnect.id = w.id := by
      rw [← id_of_find? hx]
      rfl
    rw [find?_put, hid]
    split
    · rename_i heq
      rw [heq, hx]
      rfl
    · rfl
  · rename_i e h
    have hnone : r.find? w.id = none := by
      unfold disconnect require at h
      split at h
      · cases h
      · assumption
    split
    · rename_i heq
      rw [heq, hnone]
      rfl
    · rfl

/-- A worker that was disconnected twice was disconnected once. -/
theorem find?_foldl_loseContact (ws : List Worker) (r : Roster) (id : WorkerId) :
    (ws.foldl loseContact r).find? id =
      if ∃ w ∈ ws, id = w.id then (r.find? id).map Worker.disconnect else r.find? id := by
  induction ws generalizing r with
  | nil => simp
  | cons w rest ih =>
    rw [List.foldl_cons, ih, find?_loseContact]
    by_cases hw : id = w.id
    · cases hf : r.find? id with
      | none => simp [hw]
      | some x => simp [hw, Worker.disconnect]
    · simp [hw]

theorem find?_disconnectAll (r : Roster) (id : WorkerId) :
    r.disconnectAll.find? id = (r.find? id).map Worker.disconnect := by
  unfold disconnectAll
  rw [find?_foldl_loseContact]
  split
  · rfl
  · rename_i hnone
    cases hf : r.find? id with
    | none => rfl
    | some w => exact absurd ⟨w, mem_list_of_find? hf, (id_of_find? hf).symm⟩ hnone

theorem find?_ofRecords_list (r : Roster) (id : WorkerId) :
    (ofRecords r.list).find? id = (r.find? id).map Worker.disconnect := by
  have hinj : ∀ a ∈ r.list.map Worker.disconnect, ∀ b ∈ r.list.map Worker.disconnect,
      a.key = b.key → a = b := by
    intro a ha b hb hkey
    obtain ⟨x, hx, rfl⟩ := List.mem_map.1 ha
    obtain ⟨y, hy, rfl⟩ := List.mem_map.1 hb
    have hxy : x = y := Catalog.eq_of_key_eq hx hy hkey
    rw [hxy]
  refine Option.ext fun w => ?_
  rw [Option.map_eq_some_iff]
  refine (Catalog.find?_ofList_eq_some_iff hinj).trans ?_
  rw [List.mem_map]
  constructor
  · rintro ⟨⟨x, hx, rfl⟩, hkey⟩
    have hid : x.id = id := WorkerId.text_inj.1 hkey
    exact ⟨x, hid ▸ mem_list_iff.1 hx, rfl⟩
  · rintro ⟨x, hx, rfl⟩
    have hkey : x.key = id.text := congrArg WorkerId.text (id_of_find? hx)
    exact ⟨⟨x, mem_list_of_find? hx, rfl⟩, hkey⟩

theorem ext_find? {r r' : Roster} (h : ∀ id, r.find? id = r'.find? id) : r = r' := by
  have hworkers : r.workers = r'.workers := Catalog.ext_find? fun k => h ⟨k⟩
  cases r
  cases r'
  cases hworkers
  rfl

/-- No worker outlives a restart. -/
theorem ofRecords_list (r : Roster) : ofRecords r.list = r.disconnectAll :=
  ext_find? fun id => by rw [find?_ofRecords_list, find?_disconnectAll]

theorem disconnectAll_disconnectAll (r : Roster) :
    r.disconnectAll.disconnectAll = r.disconnectAll := by
  refine ext_find? fun id => ?_
  rw [find?_disconnectAll, find?_disconnectAll, Option.map_map]
  rfl

end Roster

/-! ## Capture and recovery -/

namespace Pool

/-- A pool that is captured at one time and recovered at another is the pool that lost its workers,
as far as anybody can see. -/
structure LosesAll (p : Pool) (config : Config) (saved now : Instant) : Prop where
  /-- What is in flight are the builds that are assigned or running, each with its own worker, the
  first submitted first. -/
  flight : ∃ builds : List Build,
    (∀ b, b ∈ builds ↔ p.ledger.find? b.id = some b ∧
      (b.status = .assigned ∨ b.status = .running)) ∧
    builds.Pairwise (fun a b => a.sequence < b.sequence) ∧
    p.ledger.inFlight.map (fun x => (x.1, some x.2)) = builds.map fun b => (b.id, b.worker)
  recovered : (recover config (p.capture saved) now).1 =
    (loseAll now p.ledger.inFlight p.ledger).1
  table : (recover config (p.capture saved) now).2.ledger.view =
    (loseAll now p.ledger.inFlight p.ledger).2.view
  workers : (recover config (p.capture saved) now).2.roster = p.roster.disconnectAll
  /-- What came of each build in flight can be told from its own record. -/
  losses : (recover config (p.capture saved) now).1 =
    p.ledger.inFlight.map fun x => (x.1, p.ledger.lossOf x.1)
  /-- A build that was assigned or running waits again with one retry more, or it failed and is
  there as long as the history lists it. -/
  lost : ∀ id b, p.ledger.find? id = some b → (b.status = .assigned ∨ b.status = .running) →
    (recover config (p.capture saved) now).2.ledger.find? id =
      (recover config (p.capture saved) now).2.ledger.shown (b.lost config.maxRetries now)
  /-- All other builds are as they were, but for those that the history has no room for any more. -/
  others : ∀ id,
    (∀ b, p.ledger.find? id = some b → b.status ≠ .assigned ∧ b.status ≠ .running) →
    (recover config (p.capture saved) now).2.ledger.find? id =
      if id ∈ p.ledger.history ∧ id ∉ (recover config (p.capture saved) now).2.ledger.history
      then none else p.ledger.find? id
  history : (recover config (p.capture saved) now).2.ledger.history =
    (p.ledger.history ++ failedIn (recover config (p.capture saved) now).1).rtake
      config.retainedHistory
  /-- With nothing in flight all builds stay as they are. -/
  quiet : (∀ id b, p.ledger.find? id = some b → b.status ≠ .assigned ∧ b.status ≠ .running) →
    (recover config (p.capture saved) now).1 = [] ∧
      (recover config (p.capture saved) now).2.ledger.view = p.ledger.view
  twice : ∀ config' saved' now', config'.maxRetries = config.maxRetries →
    config'.historyLimit = config.historyLimit →
    let once := (recover config (p.capture saved) now).2
    (recover config' (once.capture saved') now').1 = [] ∧
      (recover config' (once.capture saved') now').2.ledger.view = once.ledger.view ∧
      (recover config' (once.capture saved') now').2.roster = once.roster

variable {p : Pool} {given : List BuildId} {config : Config}

theorem not_heldBy {l : Ledger} {id : BuildId}
    (h : ∀ b, l.find? id = some b → b.status ≠ .assigned ∧ b.status ≠ .running) (w : WorkerId) :
    ¬ l.HeldBy id w := by
  rintro ⟨b, hb, hheld⟩
  obtain ⟨hassigned, hrunning⟩ := h b hb
  rcases BuildStatus.holdsWorker_iff.1 (Build.heldBy_iff.1 hheld).1 with hs | hs
  · exact hassigned hs
  · exact hrunning hs

theorem inFlight_eq_nil {l : Ledger} (h : ∀ id w, ¬ l.HeldBy id w) : l.inFlight = [] := by
  refine List.eq_nil_iff_forall_not_mem.2 ?_
  rintro ⟨id, w⟩ hmem
  exact h id w (mem_inFlight.1 hmem)

theorem roster_recover (p : Pool) (config : Config) (saved now : Instant) :
    (recover config (p.capture saved) now).2.roster = p.roster.disconnectAll :=
  p.roster.ofRecords_list

theorem recover_eq (h : p.Sound given)
    (hwithin : Within config.maxRetries config.retainedHistory p.ledger) (saved now : Instant) :
    (recover config (p.capture saved) now).1 = (loseAll now p.ledger.inFlight p.ledger).1 ∧
      (recover config (p.capture saved) now).2.ledger.view =
        (loseAll now p.ledger.inFlight p.ledger).2.view :=
  ⟨(alike_ofImage h.ledger hwithin now).1, view_ofImage h.ledger hwithin now⟩

/-- But for the backlog, the ledger after a restart is the one that lost its workers. -/
theorem alike_recover (h : p.Sound given)
    (hwithin : Within config.maxRetries config.retainedHistory p.ledger) (saved now : Instant) :
    Alike (loseAll now p.ledger.inFlight p.ledger).2
      (recover config (p.capture saved) now).2.ledger :=
  (alike_ofImage h.ledger hwithin now).2

theorem find?_recover_of_inFlight {id : BuildId} {b : Build} (h : p.Sound given)
    (hwithin : Within config.maxRetries config.retainedHistory p.ledger) (saved now : Instant)
    (hb : p.ledger.find? id = some b) (hholds : b.status.holdsWorker = true) :
    (recover config (p.capture saved) now).2.ledger.find? id =
      (recover config (p.capture saved) now).2.ledger.shown (b.lost config.maxRetries now) := by
  have hworker : b.worker.isSome = true := by
    rw [h.ledger.records.worker id b hb, hholds]
  obtain ⟨w, hw⟩ := Option.isSome_iff_exists.1 hworker
  have hmem : (id, w) ∈ p.ledger.inFlight :=
    mem_inFlight.2 ⟨b, hb, Build.heldBy_iff.2 ⟨hholds, hw⟩⟩
  have hroom : 1 ≤ p.ledger.historyLimit := hwithin.limit ▸ config.one_le_retainedHistory
  have hlost := find?_loseAll_of_mem now h.ledger hroom (holding_inFlight _) hmem hb
  rw [hwithin.retries] at hlost
  obtain ⟨backlog, heq⟩ := alike_recover h hwithin saved now
  rw [heq]
  exact hlost

theorem find?_recover_of_not_inFlight {id : BuildId} (h : p.Sound given)
    (hwithin : Within config.maxRetries config.retainedHistory p.ledger) (saved now : Instant)
    (hfree : ∀ w, ¬ p.ledger.HeldBy id w) :
    (recover config (p.capture saved) now).2.ledger.find? id =
      if id ∈ p.ledger.history ∧ id ∉ (recover config (p.capture saved) now).2.ledger.history
      then none else p.ledger.find? id := by
  have hout : id ∉ p.ledger.inFlight.map Prod.fst := by
    intro hmem
    obtain ⟨⟨x, w⟩, hx, rfl⟩ := List.mem_map.1 hmem
    exact hfree w (mem_inFlight.1 hx)
  obtain ⟨backlog, heq⟩ := alike_recover h hwithin saved now
  rw [heq]
  exact find?_loseAll_of_not_mem now h.ledger hout

theorem history_recover (h : p.Sound given)
    (hwithin : Within config.maxRetries config.retainedHistory p.ledger) (saved now : Instant) :
    (recover config (p.capture saved) now).2.ledger.history =
      (p.ledger.history ++ failedIn (recover config (p.capture saved) now).1).rtake
        config.retainedHistory := by
  obtain ⟨backlog, heq⟩ := alike_recover h hwithin saved now
  rw [heq, (recover_eq h hwithin saved now).1]
  exact history_loseAll hwithin now p.ledger.inFlight

theorem recover_of_quiet (h : p.Sound given)
    (hwithin : Within config.maxRetries config.retainedHistory p.ledger)
    (hquiet : ∀ id w, ¬ p.ledger.HeldBy id w) (saved now : Instant) :
    (recover config (p.capture saved) now).1 = [] ∧
      (recover config (p.capture saved) now).2.ledger.view = p.ledger.view := by
  have heq := recover_eq h hwithin saved now
  rw [inFlight_eq_nil hquiet] at heq
  exact heq

theorem retainedHistory_eq {config config' : Config}
    (h : config'.historyLimit = config.historyLimit) :
    config'.retainedHistory = config.retainedHistory := by
  unfold Config.retainedHistory
  rw [h]

/-- What a restart gives back is kept by the next one under the same limits. -/
theorem recover_again {config' : Config} (h : p.Sound given)
    (hretries : config'.maxRetries = config.maxRetries)
    (hhistory : config'.historyLimit = config.historyLimit) (saved now saved' now' : Instant) :
    let once := (recover config (p.capture saved) now).2
    (recover config' (once.capture saved') now').1 = [] ∧
      (recover config' (once.capture saved') now').2.ledger.view = once.ledger.view ∧
      (recover config' (once.capture saved') now').2.roster = once.roster := by
  have honce := sound_restarted h now config false
  have hfree := (sound_ofImage h.ledger config.maxRetries config.retainedHistory now).2
  have hlimits : Within config'.maxRetries config'.retainedHistory
      (Course.restarted p now config false).ledger := by
    rw [hretries, retainedHistory_eq hhistory]
    exact within_ofImage p.ledger.toImage config.maxRetries config.retainedHistory now
  obtain ⟨hnone, hview⟩ := recover_of_quiet honce hlimits hfree saved' now'
  refine ⟨hnone, hview, ?_⟩
  rw [roster_recover, roster_recover, Roster.disconnectAll_disconnectAll]

theorem losesAll (h : p.Sound given)
    (hwithin : Within config.maxRetries config.retainedHistory p.ledger) (saved now : Instant) :
    p.LosesAll config saved now := by
  obtain ⟨hrecovered, htable⟩ := recover_eq h hwithin saved now
  constructor
  case flight =>
    refine ⟨p.ledger.withWorkers, fun b => ?_, withWorkers_ordered h.ledger.records,
      inFlight_eq h.ledger.records⟩
    rw [mem_withWorkers, BuildStatus.holdsWorker_iff]
  case recovered => exact hrecovered
  case table => exact htable
  case workers => exact roster_recover p config saved now
  case losses =>
    rw [hrecovered]
    exact losses_loseAll now h.ledger.records.listsEnds (holding_inFlight _)
  case lost =>
    exact fun id b hb hstatus => find?_recover_of_inFlight h hwithin saved now hb
      (BuildStatus.holdsWorker_iff.2 hstatus)
  case others =>
    exact fun id hopen => find?_recover_of_not_inFlight h hwithin saved now (not_heldBy hopen)
  case history => exact history_recover h hwithin saved now
  case quiet =>
    exact fun hnone => recover_of_quiet h hwithin (fun id => not_heldBy (hnone id)) saved now
  case twice =>
    intro config' saved' now' hretries hhistory
    exact recover_again h hretries hhistory saved now saved' now'

end Pool

namespace Course

/-- In every reachable pool a restart under the same limits does what the loss of all workers
does. -/
theorem restart_loses_all {c : Course} (h : c.Reachable) (config : Config)
    (hretries : config.maxRetries = c.pool.config.maxRetries)
    (hhistory : config.historyLimit = c.pool.config.historyLimit) (saved now : Instant) :
    c.pool.LosesAll config saved now := by
  have hlimited := h.limited
  unfold Limited at hlimited
  rw [← hretries, ← Pool.retainedHistory_eq hhistory] at hlimited
  exact Pool.losesAll h.sound.pool hlimited saved now

theorem restart_loses_all_twoBuilds :
    ((twoBuilds.after (.pass ⟨3, 0⟩)).pool.ledger.find? ⟨"b"⟩).map Build.worker =
        some (some ⟨"w"⟩) ∧
      (twoBuilds.after (.pass ⟨3, 0⟩)).pool.LosesAll { heartbeatTimeout := 9 } ⟨4, 0⟩ ⟨5, 0⟩ := by
  have h := reachable_twoBuilds.after (.pass ⟨3, 0⟩) trivial
  exact ⟨rfl, restart_loses_all h { heartbeatTimeout := 9 } rfl rfl ⟨4, 0⟩ ⟨5, 0⟩⟩

end Course

end BuildPool
