import Mathlib.Data.List.Nodup
import Mathlib.Data.List.Perm.Subperm
import Mathlib.Logic.Relation
import BuildPool.Proofs.Ledger.Recovery

/-!
# Moves of a ledger

What one write can do to a ledger, whatever stands in it. Nothing is taken for granted here about how
the records fit the history, since a ledger that comes from a file need not have been filled by
operations. An open build is written anew, or it ends and enters the history. Only builds of the
history are dropped, so a build that ended and is not listed there stays.
-/

namespace BuildPool

open BuildPool.Time

/-- The builds of an image that ended and that its history leaves out. -/
def Image.unlisted (image : Image) : List Build :=
  image.builds.filter fun b => b.isTerminal && !image.history.contains b.id

/-- In an image without two builds of one id each of its builds is the record under its id. -/
theorem Image.recorded_of_mem {image : Image} {b : Build}
    (honce : (image.builds.map Build.id).Nodup) (hb : b ∈ image.builds) :
    image.recorded b.id = some b := by
  unfold recorded
  cases hfound : image.builds.reverse.find? (·.id == b.id) with
  | none => simpa using List.find?_eq_none.1 hfound b (List.mem_reverse.2 hb)
  | some x =>
    have hx : x ∈ image.builds := List.mem_reverse.1 (List.mem_of_find?_eq_some hfound)
    have hid : x.id = b.id := by simpa using List.find?_some hfound
    rw [List.inj_on_of_nodup_map honce hx hb hid]

namespace Ledger

inductive Move (l : Ledger) : Ledger → Prop
  /-- Entries, numbers and counters, and no build. -/
  | aside (backlog : Backlog) (nextSequence : Nat) (counters : Counters) :
    Move l { l with backlog, nextSequence, counters }
  | write {b : Build} (former : ∀ old, l.find? b.id = some old → old.isTerminal = false)
    (isOpen : b.isTerminal = false) : Move l (l.put b)
  | close {b old : Build} (former : l.find? b.id = some old) (wasOpen : old.isTerminal = false)
    (ends : b.isTerminal = true) : Move l (l.archive b)
  | evict : Move l l.evict

abbrev Moves : Ledger → Ledger → Prop := Relation.ReflTransGen Move

variable {l l' : Ledger} {b : Build} {id : BuildId} {w : WorkerId} {now : Instant}
  {strays : List Build} {maxRetries historyLimit : Nat}

/-- What every move keeps is kept by all of them. -/
theorem Moves.keep {P : Ledger → Prop} (hmove : ∀ {l l'}, Move l l' → P l → P l')
    (h : Moves l l') (hl : P l) : P l' := by
  induction h with
  | refl => exact hl
  | tail _ hlast ih => exact hmove hlast ih

/-! ## Limits -/

theorem Within.move (h : Within maxRetries historyLimit l) (hmove : Move l l') :
    Within maxRetries historyLimit l' := by
  cases hmove with
  | aside => exact ⟨h.retries, h.limit, h.fits⟩
  | write => exact ⟨h.retries, h.limit, h.fits⟩
  | close => exact h.archive _
  | evict => exact within_evict h.retries h.limit

/-! ## Builds that the history leaves out -/

/-- A build that ended is in the history, or it is one of these. Of these the ledger keeps the
records, and the history lists none. -/
structure Accounts (strays : List Build) (l : Ledger) : Prop where
  accounted : ∀ id b, l.find? id = some b → b.isTerminal = true → id ∈ l.history ∨ b ∈ strays
  kept : ∀ b ∈ strays, l.find? b.id = some b ∧ b.isTerminal = true
  unlisted : ∀ b ∈ strays, b.id ∉ l.history

theorem mem_drop_of_not_mem_take {ids : List BuildId} {n : Nat} (hid : id ∈ ids)
    (htake : id ∉ ids.take n) : id ∈ ids.drop n := by
  rw [← List.take_append_drop n ids, List.mem_append] at hid
  exact hid.resolve_left htake

theorem Accounts.evict (h : Accounts strays l) : Accounts strays l.evict where
  accounted id b hb hend := by
    rw [find?_evict] at hb
    split at hb
    · cases hb
    · rename_i hstays
      exact (h.accounted id b hb hend).imp_left fun hid => mem_drop_of_not_mem_take hid hstays
  kept b hb := by
    have hstays : b.id ∉ l.surplus := fun hout => h.unlisted b hb (List.mem_of_mem_take hout)
    rw [find?_evict, if_neg hstays]
    exact h.kept b hb
  unlisted b hb hid := h.unlisted b hb (List.mem_of_mem_drop hid)

/-- A record that is written over an open one, or over none, is none of those that are kept. -/
theorem Accounts.ne_of_open (h : Accounts strays l)
    (former : ∀ old, l.find? b.id = some old → old.isTerminal = false) {x : Build}
    (hx : x ∈ strays) : x.id ≠ b.id := by
  intro heq
  obtain ⟨hfind, hend⟩ := h.kept x hx
  rw [heq] at hfind
  rw [former x hfind] at hend
  cases hend

theorem Accounts.write (h : Accounts strays l)
    (former : ∀ old, l.find? b.id = some old → old.isTerminal = false)
    (isOpen : b.isTerminal = false) : Accounts strays (l.put b) where
  accounted id x hx hend := by
    rw [find?_put] at hx
    split at hx
    · cases hx
      rw [isOpen] at hend
      cases hend
    · exact h.accounted id x hx hend
  kept x hx := by
    rw [find?_put_of_ne l b (h.ne_of_open former hx)]
    exact h.kept x hx
  unlisted := h.unlisted

/-- A build that ends, before the history is brought down to its limit. -/
theorem Accounts.close (h : Accounts strays l)
    (former : ∀ old, l.find? b.id = some old → old.isTerminal = false) (counters : Counters) :
    Accounts strays { l.put b with counters, history := l.history ++ [b.id] } where
  accounted id x hx hend := by
    change (l.put b).find? id = some x at hx
    rw [find?_put] at hx
    split at hx
    · rename_i hid
      exact .inl (List.mem_append_right _ (by simp [hid]))
    · exact (h.accounted id x hx hend).imp_left (List.mem_append_left _)
  kept x hx := by
    change (l.put b).find? x.id = some x ∧ x.isTerminal = true
    rw [find?_put_of_ne l b (h.ne_of_open former hx)]
    exact h.kept x hx
  unlisted x hx hid := by
    rcases List.mem_append.1 hid with hold | hnew
    · exact h.unlisted x hx hold
    · exact h.ne_of_open former hx (List.mem_singleton.1 hnew)

theorem Accounts.move (h : Accounts strays l) (hmove : Move l l') : Accounts strays l' := by
  cases hmove with
  | aside => exact ⟨h.accounted, h.kept, h.unlisted⟩
  | write former isOpen => exact h.write former isOpen
  | close former wasOpen ends =>
    refine (h.close (fun old hold => ?_) _).evict
    rw [former] at hold
    cases hold
    exact wasOpen
  | evict => exact h.evict

/-- The builds that ended are no more than the limit and those that are not listed. -/
theorem Accounts.length_ended_le (h : Accounts strays l) :
    (l.idsWhere Build.isTerminal).length ≤ l.history.length + strays.length := by
  have hsub : l.idsWhere Build.isTerminal ⊆ l.history ++ strays.map Build.id := by
    intro id hid
    obtain ⟨b, hb, hend⟩ := mem_idsWhere.1 hid
    rcases h.accounted id b hb hend with hlisted | hstray
    · exact List.mem_append_left _ hlisted
    · exact List.mem_append_right _ (List.mem_map.2 ⟨b, hstray, id_of_find? hb⟩)
  have hle := (List.subperm_of_subset (nodup_idsWhere l Build.isTerminal) hsub).length_le
  rwa [List.length_append, List.length_map] at hle

theorem Accounts.length_le_ended (h : Accounts strays l) (honce : (strays.map Build.id).Nodup) :
    strays.length ≤ (l.idsWhere Build.isTerminal).length := by
  have hsub : strays.map Build.id ⊆ l.idsWhere Build.isTerminal := by
    intro id hid
    obtain ⟨b, hb, rfl⟩ := List.mem_map.1 hid
    exact mem_idsWhere.2 ⟨b, h.kept b hb⟩
  have hle := (List.subperm_of_subset honce hsub).length_le
  rwa [List.length_map] at hle

/-! ## What operations come to -/

theorem moves_open {c : Build} (hb : l.find? b.id = some c) (hwas : c.isTerminal = false)
    (hopen : b.isTerminal = false) : Moves l (l.put b) := by
  refine .single (.write (fun old hold => ?_) hopen)
  rw [hb] at hold
  cases hold
  exact hwas

theorem moves_requeue {c : Build} (hb : l.find? b.id = some c) (hwas : c.isTerminal = false)
    (hopen : b.isTerminal = false) (counters : Counters) :
    Moves l { (l.put b).enqueue b with counters } :=
  (moves_open hb hwas hopen).tail (.aside _ _ _)

theorem moves_submit {r : Request} (h : l.submit r id now = .ok (b, l')) : Moves l l' := by
  obtain ⟨_, -, h⟩ := Refusal.of_bind_eq_ok h
  simp only at h
  split at h
  · cases h
    exact .single (.aside _ _ _)
  · rename_i hnone
    cases h
    refine .head (.aside (l.backlog.push _) _ _) (.single (.write (fun old hold => ?_) rfl))
    change l.find? id = some old at hold
    rw [hnone] at hold
    cases hold

theorem moves_assign (h : l.assign id w now = .ok (b, l')) : Moves l l' := by
  obtain ⟨c, hc, hq, rfl, rfl⟩ := assign_eq_ok h
  obtain rfl := id_of_find? hc
  exact moves_open hc (Build.isTerminal_eq_false_of_queued hq) rfl

theorem moves_acknowledge? {attempt : Nat} (h : l.acknowledge? id w attempt = some l') :
    Moves l l' := by
  obtain ⟨c, hc, ha, rfl⟩ := acknowledge?_eq_some h
  obtain rfl := id_of_find? hc
  exact moves_open hc (Build.isTerminal_eq_false_of_heldBy (Build.awaits_iff.1 ha).2.2) rfl

theorem moves_rollback? {attempt : Nat} (h : l.rollback? id w attempt = some l') :
    Moves l l' := by
  obtain ⟨c, hc, ha, rfl⟩ := rollback?_eq_some h
  obtain rfl := id_of_find? hc
  have hopen := Build.isTerminal_eq_false_of_heldBy (Build.awaits_iff.1 ha).2.2
  exact moves_requeue (b := c.requeue) hc hopen rfl _

theorem moves_progress {amount : Float} (h : l.progress id w amount = .ok (some l')) :
    Moves l l' := by
  obtain ⟨c, hc, hheld, rfl⟩ := progress_eq_ok h
  obtain rfl := id_of_find? hc
  rw [← Build.advance_id c amount] at hc
  have hholds := Build.advance_holdsWorker (Build.heldBy_iff.1 hheld).1 amount
  exact moves_open hc (Build.isTerminal_eq_false_of_heldBy hheld)
    (Build.isTerminal_eq_false_of_holdsWorker hholds)

theorem moves_complete {r : Report} (h : l.complete id r now = .ok (some l')) : Moves l l' := by
  obtain ⟨c, hc, hheld, rfl⟩ := complete_eq_ok h
  obtain rfl := id_of_find? hc
  exact .single (.close hc (Build.isTerminal_eq_false_of_heldBy hheld) (isTerminal_verdict r))

theorem moves_cancel {answer : Cancellation} (h : l.cancel id now = .ok (answer, l')) :
    Moves l l' := by
  obtain ⟨c, hc, ⟨-, -, rfl⟩ | ⟨hopen, -, rfl⟩⟩ := cancel_eq_ok h
  · exact .refl
  · obtain rfl := id_of_find? hc
    exact .single (.close hc hopen rfl)

theorem moves_satisfy? {artifacts : List String} (h : l.satisfy? id artifacts now = some l') :
    Moves l l' := by
  obtain ⟨c, hc, hq, rfl⟩ := satisfy?_eq_some h
  obtain rfl := id_of_find? hc
  have hopen : c.isTerminal = false := Build.isTerminal_eq_false_of_queued hq
  exact .head (.aside l.backlog l.nextSequence _) (.single (.close hc hopen rfl))

theorem moves_lose (l : Ledger) (id : BuildId) (w : WorkerId) (now : Instant) :
    Moves l (l.lose id w now).2 := by
  rcases lose_cases l id w now with ⟨-, heq⟩ | ⟨c, hc, hheld, ⟨-, heq⟩ | ⟨-, heq⟩⟩
  · rw [heq]
  · obtain rfl := id_of_find? hc
    rw [heq]
    exact .single (.close hc (Build.isTerminal_eq_false_of_heldBy hheld) rfl)
  · obtain rfl := id_of_find? hc
    rw [heq]
    exact moves_requeue (b := { c with retries := c.retries + 1 }.requeue) hc
      (Build.isTerminal_eq_false_of_heldBy hheld) rfl _

theorem moves_loseAll (now : Instant) (pairs : List (BuildId × WorkerId)) (l : Ledger) :
    Moves l (loseAll now pairs l).2 := by
  induction pairs generalizing l with
  | nil => exact .refl
  | cons pair rest ih => exact (moves_lose l pair.1 pair.2 now).trans (ih _)

theorem moves_popQueued (l : Ledger) : Moves l l.popQueued.2 := .single (.aside _ _ _)

theorem moves_pushBack (entries : List Entry) (l : Ledger) :
    Moves l (entries.foldl pushBack l) := by
  induction entries generalizing l with
  | nil => exact .refl
  | cons e rest ih => exact .head (.aside _ _ _) (ih (l.pushBack e))

/-! ## Ledgers that are rebuilt -/

/-- The history of a rebuilt ledger leaves out what the history of the image leaves out. -/
theorem accounts_reopen {image : Image} (honce : (image.builds.map Build.id).Nodup)
    (maxRetries historyLimit : Nat) :
    Accounts image.unlisted (reopen image maxRetries historyLimit) := by
  have hfind := find?_reopen_image image maxRetries historyLimit
  have hlisted : ∀ id, id ∈ (reopen image maxRetries historyLimit).history ↔
      id ∈ image.history ∧ (image.recorded id).any Build.isTerminal = true := by
    intro id
    rw [← hfind id]
    exact List.mem_filter
  constructor
  case accounted =>
    intro id b hb hend
    rw [hfind] at hb
    have hid : b.id = id := by simpa using List.find?_some hb
    have hmem : b ∈ image.builds := List.mem_reverse.1 (List.mem_of_find?_eq_some hb)
    by_cases hin : id ∈ image.history
    · exact .inl ((hlisted id).2 ⟨hin, by rw [hb]; exact hend⟩)
    · refine .inr (List.mem_filter.2 ⟨hmem, ?_⟩)
      simp [hend, hid, hin]
  case kept =>
    intro b hb
    obtain ⟨hmem, hb⟩ := List.mem_filter.1 hb
    rw [hfind, Image.recorded_of_mem honce hmem]
    exact ⟨rfl, by simpa using (Bool.and_eq_true_iff.1 hb).1⟩
  case unlisted =>
    intro b hb hid
    have hout := (Bool.and_eq_true_iff.1 (List.mem_filter.1 hb).2).2
    have hin := ((hlisted b.id).1 hid).1
    simp [hin] at hout

end Ledger

end BuildPool
