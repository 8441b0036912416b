import BuildPool.Proofs.Ledger.Limits

/-!
# Notes on builds

All that an operation on one build does to a ledger is to enter a note: the new record, a place in
the queue if the build goes back there, and an end that is counted and listed. Notes on two open
builds can be entered in either order. Only the ends come into the history in that order, and two
places in it are enough that neither drives the other out.
-/

namespace BuildPool

namespace Ledger

structure Note where
  record : Build
  requeued : Bool := false
  /-- How many builds the cache ended with it. -/
  hits : Nat := 0

def Note.ended (n : Note) : List BuildId := if n.record.isTerminal then [n.record.id] else []

def Note.count (n : Note) (c : Counters) : Counters :=
  Counters.countEnd { c with cacheHits := c.cacheHits + n.hits } n.record.status

/-- The ledger with a note, before its history is brought down to the limit. -/
def note (l : Ledger) (n : Note) : Ledger :=
  { l.put n.record with
    backlog := if n.requeued then l.backlog.push n.record.entry else l.backlog
    history := l.history ++ n.ended
    counters := n.count l.counters }

def write (l : Ledger) (n : Note) : Ledger := (l.note n).evict

variable {l : Ledger} {n m : Note} {b : Build} {id : BuildId}

/-! ## Operations as notes -/

theorem ended_cases (n : Note) : n.ended = [] ∨ n.ended = [n.record.id] := by
  unfold Note.ended
  split <;> simp

theorem length_ended_le (n : Note) : n.ended.length ≤ 1 := by
  rcases ended_cases n with h | h <;> simp [h]

theorem note_of_open (h : b.isTerminal = false) (requeued : Bool) :
    l.note { record := b, requeued } = if requeued then (l.put b).enqueue b else l.put b := by
  have hended : Note.ended { record := b, requeued } = [] := by simp [Note.ended, h]
  have hcount : Note.count { record := b, requeued } l.counters = l.counters := by
    unfold Build.isTerminal at h
    unfold Note.count Counters.countEnd
    split <;> simp_all [BuildStatus.isTerminal]
  unfold note
  rw [hended, hcount, List.append_nil]
  cases requeued <;> rfl

/-- As long as a build is open nothing is dropped for it. -/
theorem write_of_open (hfits : l.history.length ≤ l.historyLimit) (h : b.isTerminal = false)
    (requeued : Bool) :
    l.write { record := b, requeued } = if requeued then (l.put b).enqueue b else l.put b := by
  rw [write, note_of_open h, evict_eq_self]
  split <;> exact hfits

theorem write_put (hfits : l.history.length ≤ l.historyLimit) (h : b.isTerminal = false) :
    l.write { record := b } = l.put b :=
  write_of_open hfits h false

theorem write_self (hfits : l.history.length ≤ l.historyLimit) (hb : l.find? b.id = some b)
    (h : b.isTerminal = false) : l.write { record := b } = l := by
  rw [write_put hfits h, put_of_find? hb]

theorem write_requeue (hfits : l.history.length ≤ l.historyLimit) (h : b.isTerminal = false) :
    l.write { record := b, requeued := true } = (l.put b).enqueue b :=
  write_of_open hfits h true

theorem write_archive (h : b.isTerminal = true) (hits : Nat) :
    l.write { record := b, hits } =
      { l with counters := { l.counters with cacheHits := l.counters.cacheHits + hits } }.archive
        b := by
  have hended : Note.ended { record := b, hits } = [b.id] := if_pos h
  rw [write, note, hended]
  rfl

/-! ## One note -/

/-- How many builds of the history are dropped for a note. -/
def excess (l : Ledger) (n : Note) : Nat :=
  l.history.length + n.ended.length - l.historyLimit

theorem excess_le (hlimit : 1 ≤ l.historyLimit) (n : Note) : l.excess n ≤ l.history.length := by
  have hone := length_ended_le n
  unfold excess
  omega

/-- A note drops builds that ended before. -/
theorem surplus_note (hlimit : 1 ≤ l.historyLimit) (n : Note) :
    (l.note n).surplus = l.history.take (l.excess n) := by
  have hle := excess_le hlimit n
  change (l.history ++ n.ended).take ((l.history ++ n.ended).length - l.historyLimit) = _
  rw [List.length_append, ← excess, List.take_append_of_le_length hle]

theorem history_write (hlimit : 1 ≤ l.historyLimit) (n : Note) :
    (l.write n).history = l.history.drop (l.excess n) ++ n.ended := by
  have hle := excess_le hlimit n
  change (l.history ++ n.ended).drop ((l.history ++ n.ended).length - l.historyLimit) = _
  rw [List.length_append, ← excess, List.drop_append_of_le_length hle]

theorem find?_write (hlimit : 1 ≤ l.historyLimit) (n : Note) (id : BuildId) :
    (l.write n).find? id =
      if id ∈ l.history.take (l.excess n) then none
      else if id = n.record.id then some n.record else l.find? id := by
  rw [write, find?_evict, surplus_note hlimit, ← find?_put]
  rfl

theorem ListsEnds.not_mem_history (h : l.ListsEnds) (hb : l.find? id = some b)
    (hopen : b.isTerminal = false) : id ∉ l.history := by
  intro hid
  have hend := h id b hid hb
  simp [hopen] at hend

/-- A note on one build leaves the other open builds as they are. -/
theorem find?_write_of_ne (h : l.ListsEnds) (hlimit : 1 ≤ l.historyLimit)
    (hb : l.find? id = some b) (hopen : b.isTerminal = false) (hne : id ≠ n.record.id) :
    (l.write n).find? id = some b := by
  have hnot : id ∉ l.history.take (l.excess n) :=
    fun hmem => h.not_mem_history hb hopen (List.mem_of_mem_take hmem)
  rw [find?_write hlimit, if_neg hnot, if_neg hne, hb]

/-! ## Two notes -/

def excessBoth (l : Ledger) (m n : Note) : Nat :=
  l.history.length + m.ended.length + n.ended.length - l.historyLimit

/-- The second note drops what the first one left too much. -/
theorem excess_write (hlimit : 1 ≤ l.historyLimit) (m n : Note) :
    l.excess m + (l.write m).excess n = l.excessBoth m n := by
  have hle := excess_le hlimit m
  have hnext : (l.write m).excess n =
      (l.write m).history.length + n.ended.length - l.historyLimit := rfl
  rw [hnext, history_write hlimit, List.length_append, List.length_drop]
  unfold excess at hle ⊢
  unfold excessBoth
  omega

/-- Two places are enough that the second end does not drop the first. -/
theorem excess_write_le (hlimit : 2 ≤ l.historyLimit) (m n : Note) :
    (l.write m).excess n ≤ (l.history.drop (l.excess m)).length := by
  have hm := length_ended_le m
  have hn := length_ended_le n
  have hnext : (l.write m).excess n =
      (l.write m).history.length + n.ended.length - l.historyLimit := rfl
  rw [hnext, history_write (by omega), List.length_append]
  omega

theorem history_write_write (hlimit : 2 ≤ l.historyLimit) (m n : Note) :
    ((l.write m).write n).history = l.history.drop (l.excessBoth m n) ++ (m.ended ++ n.ended) := by
  have hone : 1 ≤ l.historyLimit := by omega
  have hle := excess_write_le hlimit m n
  have hsum := excess_write hone m n
  rw [history_write (l := l.write m) hone, history_write hone, List.drop_append_of_le_length hle,
    List.drop_drop, hsum, List.append_assoc]

theorem find?_write_write (hlimit : 2 ≤ l.historyLimit) (hn : n.record.id ∉ l.history)
    (id : BuildId) :
    ((l.write m).write n).find? id =
      if id ∈ l.history.take (l.excessBoth m n) then none
      else if id = n.record.id then some n.record
      else if id = m.record.id then some m.record else l.find? id := by
  have hone : 1 ≤ l.historyLimit := by omega
  have hle := excess_write_le hlimit m n
  have hdropped : id ∈ l.history.take (l.excessBoth m n) ↔ id ∈ l.history.take (l.excess m) ∨
      id ∈ (l.write m).history.take ((l.write m).excess n) := by
    rw [← excess_write hone, List.take_add, List.mem_append, history_write hone,
      List.take_append_of_le_length hle]
  rw [find?_write (l := l.write m) hone, find?_write hone]
  -- A build that the first note dropped would come back with a second note on it.
  by_cases hid : id = n.record.id
  · subst hid
    have hfirst : n.record.id ∉ l.history.take (l.excess m) :=
      fun hmem => hn (List.mem_of_mem_take hmem)
    simp [hdropped, hfirst]
  · by_cases hfirst : id ∈ l.history.take (l.excess m)
    · simp [hdropped, hfirst, hid]
    · simp [hdropped, hfirst, hid]

/-! ## Either order -/

theorem excessBoth_comm (l : Ledger) (m n : Note) : l.excessBoth m n = l.excessBoth n m := by
  unfold excessBoth
  omega

theorem builds_write_comm (hlimit : 2 ≤ l.historyLimit) (hm : m.record.id ∉ l.history)
    (hn : n.record.id ∉ l.history) (hne : m.record.id ≠ n.record.id) :
    ((l.write m).write n).builds = ((l.write n).write m).builds := by
  have hfind : ∀ id, ((l.write m).write n).find? id = ((l.write n).write m).find? id := by
    intro id
    rw [find?_write_write hlimit hn, find?_write_write hlimit hm, excessBoth_comm]
    by_cases hid : id = m.record.id
    · simp [hid, hne]
    · simp [hid]
  apply Catalog.ext_find?
  intro k
  exact hfind ⟨k⟩

theorem Note.count_comm (m n : Note) (c : Counters) :
    n.count (m.count c) = m.count (n.count c) := by
  unfold Note.count
  cases m.record.status <;> cases n.record.status <;>
    simp only [Counters.countEnd, Nat.add_right_comm]

/-- Where both builds ended they are the last of the history, in the order in which they did. -/
theorem history_write_comm (hlimit : 2 ≤ l.historyLimit) (m n : Note) :
    ((l.write m).write n).history = ((l.write n).write m).history ∨
    ∃ kept, ((l.write m).write n).history = kept ++ [m.record.id, n.record.id] ∧
      ((l.write n).write m).history = kept ++ [n.record.id, m.record.id] := by
  rw [history_write_write hlimit m n, history_write_write hlimit n m, excessBoth_comm]
  rcases ended_cases m with hm | hm
  · left
    rw [hm, List.nil_append, List.append_nil]
  rcases ended_cases n with hn | hn
  · left
    rw [hn, List.nil_append, List.append_nil]
  right
  rw [hm, hn]
  exact ⟨_, rfl, rfl⟩

end Ledger

end BuildPool
