import BuildPool.Pool.Liveness
import BuildPool.Proofs.Ledger.Losses
import BuildPool.Proofs.Roster.Slots

/-!
# Scans

A scan takes all builds from the workers that fell silent, worker by worker, and notes what came of
each of them. The other workers stay as they are.
-/

namespace BuildPool

open BuildPool.Time Ledger

/-! ## The builds of some workers -/

namespace Roster

variable {r : Roster} {w x : WorkerId} {b : BuildId} {ws : List WorkerId}

def activeOf (r : Roster) (w : WorkerId) : List BuildId :=
  match r.find? w with
  | some worker => worker.active.toList
  | none => []

/-- The builds of some workers, each with its worker. -/
def holdings (r : Roster) (ws : List WorkerId) : List (BuildId × WorkerId) :=
  ws.flatMap fun w => (r.activeOf w).map fun b => (b, w)

theorem mem_activeOf : b ∈ r.activeOf w ↔ r.Holds w b := by
  unfold activeOf Holds
  cases r.find? w with
  | none => simp
  | some worker => simp [Catalog.mem_toList]

theorem mem_holdings : (b, w) ∈ r.holdings ws ↔ w ∈ ws ∧ r.Holds w b := by
  unfold holdings
  rw [List.mem_flatMap]
  constructor
  · rintro ⟨v, hv, hb⟩
    obtain ⟨y, hy, heq⟩ := List.mem_map.1 hb
    cases heq
    exact ⟨hv, mem_activeOf.1 hy⟩
  · rintro ⟨hw, hb⟩
    exact ⟨w, hw, List.mem_map.2 ⟨b, mem_activeOf.2 hb, rfl⟩⟩

theorem nodup_activeOf (r : Roster) (w : WorkerId) : (r.activeOf w).Nodup := by
  unfold activeOf
  split
  · rename_i worker _
    exact worker.active.nodup_items
  · exact List.nodup_nil

/-- If no two workers hold one build, no build is there twice. -/
theorem nodup_holdings (hws : ws.Nodup) (h : ∀ v w b, r.Holds v b → r.Holds w b → v = w) :
    ((r.holdings ws).map Prod.fst).Nodup := by
  have hfirst : ∀ w, ((r.activeOf w).map fun b => (b, w)).map Prod.fst = r.activeOf w := by
    intro w
    rw [List.map_map]
    exact List.map_id _
  unfold holdings
  rw [List.map_flatMap]
  simp only [hfirst]
  apply List.pairwise_flatMap.2
  constructor
  · intro w _
    exact r.nodup_activeOf w
  · apply hws.imp
    intro v w hne a ha c hc hac
    subst hac
    exact hne (h v w a (mem_activeOf.1 ha) (mem_activeOf.1 hc))

/-- Silent workers are known and online, and each is named once. -/
theorem find?_of_mem_stale {judged : Instant} {timeout : Int} (h : w ∈ r.stale judged timeout) :
    ∃ worker, r.find? w = some worker ∧ worker.isOnline = true := by
  obtain ⟨worker, hmem, rfl⟩ := List.mem_map.1 h
  obtain ⟨hlist, hstale⟩ := List.mem_filter.1 hmem
  rw [Bool.and_eq_true] at hstale
  exact ⟨worker, mem_list_iff.1 hlist, hstale.1⟩

theorem nodup_stale (r : Roster) (judged : Instant) (timeout : Int) :
    (r.stale judged timeout).Nodup := by
  apply List.pairwise_map.2
  apply List.Pairwise.sublist List.filter_sublist
  apply r.workers.ordered.imp
  intro a b hlt heq
  have hkey : a.key = b.key := congrArg WorkerId.text heq
  rw [hkey] at hlt
  exact String.lt_irrefl _ hlt

theorem disconnect_of_find? {worker : Worker} (h : r.find? w = some worker) :
    r.disconnect w = .ok (r.activeOf w, r.put worker.disconnect) := by
  unfold activeOf
  rw [disconnect_of_known h, h]

theorem find?_put_disconnect {worker : Worker} (h : r.find? w = some worker) (x : WorkerId) :
    (r.put worker.disconnect).find? x =
      if x = w then some worker.disconnect else r.find? x := by
  have hid : worker.disconnect.id = w := by
    rw [← id_of_find? h]
    rfl
  rw [find?_put, hid]

theorem holdings_put_disconnect {worker : Worker} (h : r.find? w = some worker) (hw : w ∉ ws) :
    (r.put worker.disconnect).holdings ws = r.holdings ws := by
  apply congrArg List.flatten
  apply List.map_congr_left
  intro v hv
  have hne : v ≠ w := by
    rintro rfl
    exact hw hv
  unfold activeOf
  rw [find?_put_disconnect h, if_neg hne]

end Roster

/-! ## Scanning -/

namespace Scanning

variable {s : Scanning} {w : WorkerId} {ws : List WorkerId}

theorem takeBuild_eq (now : Instant) (w : WorkerId) (s : Scanning) (b : BuildId) :
    s.takeBuild now w b =
      { s with
        ledger := (s.ledger.lose b w now).2
        scan := { s.scan with
          requeued := s.scan.requeued ++ requeuedIn [(b, (s.ledger.lose b w now).1)]
          failed := s.scan.failed ++ failedIn [(b, (s.ledger.lose b w now).1)] } } := by
  unfold takeBuild
  split
  · rename_i heq
    rw [heq]
    simp [requeuedIn, failedIn, Loss.isRequeued]
  · rename_i heq
    rw [heq]
    simp [requeuedIn, failedIn, Loss.isRequeued]
  · rename_i heq
    rw [heq]
    simp [requeuedIn, failedIn, Loss.isRequeued]

theorem foldl_takeBuild (now : Instant) (w : WorkerId) (held : List BuildId) (s : Scanning) :
    held.foldl (takeBuild now w) s =
      { s with
        ledger := (loseAll now (held.map fun b => (b, w)) s.ledger).2
        scan := { s.scan with
          requeued := s.scan.requeued ++
            requeuedIn (loseAll now (held.map fun b => (b, w)) s.ledger).1
          failed := s.scan.failed ++
            failedIn (loseAll now (held.map fun b => (b, w)) s.ledger).1 } } := by
  induction held generalizing s with
  | nil => simp [loseAll, requeuedIn, failedIn]
  | cons b rest ih =>
    rw [List.foldl_cons, ih, takeBuild_eq, List.map_cons, loseAll_cons]
    dsimp only
    rw [List.append_assoc, ← requeuedIn_append, List.append_assoc, ← failedIn_append]
    rfl

theorem takeWorker_eq (now : Instant) {worker : Worker} (h : s.roster.find? w = some worker) :
    s.takeWorker now w =
      { ledger := (loseAll now (s.roster.holdings [w]) s.ledger).2
        roster := s.roster.put worker.disconnect
        scan := {
          offline := s.scan.offline ++ [w]
          requeued := s.scan.requeued ++
            requeuedIn (loseAll now (s.roster.holdings [w]) s.ledger).1
          failed := s.scan.failed ++
            failedIn (loseAll now (s.roster.holdings [w]) s.ledger).1 } } := by
  have hone : s.roster.holdings [w] = (s.roster.activeOf w).map fun b => (b, w) := by
    unfold Roster.holdings
    rw [List.flatMap_cons, List.flatMap_nil, List.append_nil]
  unfold takeWorker
  rw [Roster.disconnect_of_find? h, hone]
  dsimp only
  rw [foldl_takeBuild]

/-- Workers that are known, each named once, lose the builds that they held at the start. -/
theorem foldl_takeWorker (now : Instant) (hws : ws.Nodup)
    (hknown : ∀ w ∈ ws, ∃ worker, s.roster.find? w = some worker) :
    (ws.foldl (takeWorker now) s).ledger = (loseAll now (s.roster.holdings ws) s.ledger).2 ∧
      (ws.foldl (takeWorker now) s).scan =
        { offline := s.scan.offline ++ ws
          requeued := s.scan.requeued ++
            requeuedIn (loseAll now (s.roster.holdings ws) s.ledger).1
          failed := s.scan.failed ++
            failedIn (loseAll now (s.roster.holdings ws) s.ledger).1 } := by
  induction ws generalizing s with
  | nil => simp [Roster.holdings, loseAll, requeuedIn, failedIn]
  | cons w rest ih =>
    obtain ⟨hfirst, hrest⟩ := List.nodup_cons.1 hws
    obtain ⟨worker, hworker⟩ := hknown w List.mem_cons_self
    have hothers := Roster.holdings_put_disconnect hworker hfirst
    have hsplit : s.roster.holdings (w :: rest) =
        s.roster.holdings [w] ++ s.roster.holdings rest := by
      unfold Roster.holdings
      rw [← List.flatMap_append, List.singleton_append]
    have hstill : ∀ v ∈ rest, ∃ other,
        (s.roster.put worker.disconnect).find? v = some other := by
      intro v hv
      rw [Roster.find?_put_disconnect hworker]
      split
      · exact ⟨_, rfl⟩
      · exact hknown v (List.mem_cons_of_mem w hv)
    rw [List.foldl_cons, takeWorker_eq now hworker]
    obtain ⟨hledger, hscan⟩ := ih (s := {
      ledger := (loseAll now (s.roster.holdings [w]) s.ledger).2
      roster := s.roster.put worker.disconnect
      scan := {
        offline := s.scan.offline ++ [w]
        requeued := s.scan.requeued ++
          requeuedIn (loseAll now (s.roster.holdings [w]) s.ledger).1
        failed := s.scan.failed ++
          failedIn (loseAll now (s.roster.holdings [w]) s.ledger).1 } }) hrest hstill
    rw [hledger, hscan, hothers, hsplit, loseAll_append]
    simp only [List.append_assoc, requeuedIn_append, failedIn_append, List.singleton_append,
      and_self]

theorem find?_foldl_takeWorker (now : Instant) (ws : List WorkerId) (s : Scanning)
    (x : WorkerId) :
    (ws.foldl (takeWorker now) s).roster.find? x =
      if x ∈ ws then (s.roster.find? x).map Worker.disconnect else s.roster.find? x := by
  induction ws generalizing s with
  | nil => simp
  | cons w rest ih =>
    rw [List.foldl_cons, ih]
    cases hw : s.roster.find? w with
    | none =>
      have hsame : s.takeWorker now w = s := by
        unfold takeWorker Roster.disconnect Roster.require
        rw [hw]
        rfl
      rw [hsame]
      by_cases hx : x = w
      · simp [hx, hw]
      · simp [hx]
    | some worker =>
      rw [takeWorker_eq now hw]
      dsimp only
      rw [Roster.find?_put_disconnect hw]
      by_cases hx : x = w
      · simp [hx, hw, Worker.disconnect]
      · simp [hx]

end Scanning

namespace Pool

/-- The builds that are taken from the workers that fell silent. -/
def overdue (p : Pool) (judged : Instant) : List (BuildId × WorkerId) :=
  p.roster.holdings (p.roster.stale judged p.heartbeatTimeout)

/-- What a scan does, before it is announced. -/
theorem scan_eq (p : Pool) (now judged : Instant) :
    ∃ roster,
      p.scan now judged =
        ((p.scan now judged).1,
          { p with
            ledger := (loseAll now (p.overdue judged) p.ledger).2
            roster }.announceScan now (p.scan now judged).1) ∧
      (p.scan now judged).1 =
        { offline := p.roster.stale judged p.heartbeatTimeout
          requeued := requeuedIn (loseAll now (p.overdue judged) p.ledger).1
          failed := failedIn (loseAll now (p.overdue judged) p.ledger).1 } ∧
      ∀ w, roster.find? w = if w ∈ p.roster.stale judged p.heartbeatTimeout
        then (p.roster.find? w).map Worker.disconnect else p.roster.find? w := by
  have hnodup := p.roster.nodup_stale judged p.heartbeatTimeout
  have hknown : ∀ w ∈ p.roster.stale judged p.heartbeatTimeout,
      ∃ worker, p.roster.find? w = some worker := by
    intro w hw
    obtain ⟨worker, hworker, -⟩ := Roster.find?_of_mem_stale hw
    exact ⟨worker, hworker⟩
  obtain ⟨hledger, hscan⟩ := Scanning.foldl_takeWorker (s := ⟨p.ledger, p.roster, {}⟩) now
    hnodup hknown
  have hroster := Scanning.find?_foldl_takeWorker now
    (p.roster.stale judged p.heartbeatTimeout) ⟨p.ledger, p.roster, {}⟩
  refine ⟨_, ?_, ?_, hroster⟩
  · unfold scan overdue
    dsimp only at hledger ⊢
    rw [hledger]
  · exact hscan

/-- With nobody overdue a scan does nothing. -/
theorem scan_of_stale_nil {p : Pool} {judged : Instant}
    (h : p.roster.stale judged p.heartbeatTimeout = []) (now : Instant) :
    p.scan now judged = ({}, p) := by
  unfold scan
  rw [h]
  rfl

end Pool

end BuildPool
