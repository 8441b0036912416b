import BuildPool.Proofs.Backlog.Drain
import BuildPool.Proofs.Ledger.Records

/-!
# The queue of a ledger

Every queued build has one entry, with its own priority and number. An entry whose build is not
queued belongs to a build that ended, or that was dropped since. A pass takes entries off and sets
some aside, so the rule is about any list of entries; between two operations it is the backlog.
-/

namespace BuildPool

namespace Ledger

variable {given : List BuildId} {l : Ledger} {b b' : Build} {e : Entry} {entries : List Entry}

/-- These entries, and no others, stand for the queued builds. -/
structure Lists (given : List BuildId) (l : Ledger) (entries : List Entry) : Prop where
  waits : ∀ id b, l.find? id = some b → b.status = .queued → b.entry ∈ entries
  numbered : ∀ e ∈ entries, Numbered given e.build e.sequence
  live : ∀ e ∈ entries, ∀ b, l.find? e.build = some b →
    b.isTerminal = true ∨ (b.status = .queued ∧ e = b.entry)
  once : (entries.map Entry.sequence).Nodup

namespace Lists

/-- The entries of just the queued builds are such a list. -/
theorem of_builds {bs : List Build} (h : Records given l) (hnodup : bs.Nodup)
    (hmem : ∀ b, b ∈ bs ↔ l.find? b.id = some b ∧ b.status = .queued) :
    Lists given l (bs.map Build.entry) where
  waits id b hb hq := by
    refine List.mem_map_of_mem ((hmem b).2 ⟨?_, hq⟩)
    rw [id_of_find? hb, hb]
  numbered e he := by
    obtain ⟨b, hb, rfl⟩ := List.mem_map.1 he
    exact h.numbered b.id b ((hmem b).1 hb).1
  live e he b hb := by
    obtain ⟨c, hc, rfl⟩ := List.mem_map.1 he
    obtain ⟨hfind, hq⟩ := (hmem c).1 hc
    change l.find? c.id = some b at hb
    rw [hfind] at hb
    cases hb
    exact .inr ⟨hq, rfl⟩
  once := by
    rw [List.map_map, List.Nodup, List.pairwise_map]
    refine List.Pairwise.imp_of_mem (fun {a b} ha hb hne heq => hne ?_) hnodup
    exact h.eq_of_sequence_eq ((hmem a).1 ha).1 ((hmem b).1 hb).1 heq

theorem perm {entries' : List Entry} (h : Lists given l entries) (hp : entries.Perm entries') :
    Lists given l entries' where
  waits id b hb hq := hp.mem_iff.1 (h.waits id b hb hq)
  numbered e he := h.numbered e (hp.mem_iff.2 he)
  live e he := h.live e (hp.mem_iff.2 he)
  once := (hp.map _).nodup_iff.1 h.once

/-- Only the records count. -/
theorem of_find?_eq {l' : Ledger} (h : Lists given l entries)
    (heq : ∀ id, l'.find? id = l.find? id) : Lists given l' entries where
  waits id b hb hq := h.waits id b (by rw [← heq, hb]) hq
  numbered := h.numbered
  live e he b hb := h.live e he b (by rw [← heq, hb])
  once := h.once

/-- A queued build has no second entry. -/
theorem not_mem_of_cons (h : Lists given l (e :: entries)) {x : Entry} (hx : x ∈ entries) :
    x.sequence ≠ e.sequence := by
  have honce := h.once
  rw [List.map_cons, List.nodup_cons] at honce
  intro heq
  exact honce.1 (heq ▸ List.mem_map_of_mem hx)

theorem nodup (h : Lists given l entries) : entries.Nodup := by
  refine (List.pairwise_map.1 h.once).imp ?_
  rintro a b hne rfl
  exact hne rfl

/-- The entry of a queued build is the one with its own priority and number. -/
theorem eq_entry (h : Lists given l entries) (he : e ∈ entries)
    (hb : l.find? e.build = some b) (hq : b.status = .queued) : e = b.entry := by
  rcases h.live e he b hb with hend | ⟨-, heq⟩
  · exact absurd hq (Build.ne_queued_of_isTerminal hend)
  · exact heq

/-- A queued build has just one entry. -/
theorem filter_eq (h : Lists given l entries) (hb : l.find? b.id = some b)
    (hq : b.status = .queued) : entries.filter (fun e => decide (e.build = b.id)) = [b.entry] := by
  refine List.perm_singleton.1 ?_
  refine (List.perm_ext_iff_of_nodup (h.nodup.sublist List.filter_sublist) (by simp)).2 fun e => ?_
  rw [List.mem_filter, decide_eq_true_iff, List.mem_singleton]
  constructor
  · rintro ⟨he, hid⟩
    exact h.eq_entry he (by rw [hid, hb]) hq
  · rintro rfl
    exact ⟨h.waits b.id b hb hq, rfl⟩

/-- An entry whose build is not queued can go. -/
theorem drop (h : Lists given l (e :: entries)) (he : l.isQueued e.build = false) :
    Lists given l entries where
  waits id b hb hq := by
    rcases List.mem_cons.1 (h.waits id b hb hq) with heq | hmem
    · have hid : e.build = id := by rw [← heq, ← id_of_find? hb]; rfl
      rw [isQueued, hid, hb] at he
      simp [hq] at he
    · exact hmem
  numbered x hx := h.numbered x (List.mem_cons_of_mem e hx)
  live x hx := h.live x (List.mem_cons_of_mem e hx)
  once := (List.nodup_cons.1 (List.map_cons ▸ h.once)).2

theorem drop_all {dead : List Entry} (h : Lists given l (dead ++ entries))
    (hdead : ∀ e ∈ dead, l.isQueued e.build = false) : Lists given l entries := by
  induction dead with
  | nil => exact h
  | cons e dead ih =>
    exact ih (h.drop (hdead e List.mem_cons_self)) fun x hx =>
      hdead x (List.mem_cons_of_mem e hx)

/-- A build with a worker has no entry. -/
theorem not_listed (h : Lists given l entries) (hb : l.find? b.id = some b)
    (hw : b.status.holdsWorker = true) (he : e ∈ entries) : e.build ≠ b.id := by
  intro hid
  rcases h.live e he b (by rw [hid, hb]) with hend | ⟨hq, -⟩
  · rw [Build.isTerminal_eq_false_of_holdsWorker hw] at hend
    cases hend
  · rw [hq] at hw
    cases hw

/-- The record of a build without entries can change as long as the build is not queued. -/
theorem put_unlisted (h : Lists given l entries) (hno : ∀ e ∈ entries, e.build ≠ b'.id)
    (hq : b'.status ≠ .queued) : Lists given (l.put b') entries where
  waits := forall_find?_put h.waits fun hxq => absurd hxq hq
  numbered := h.numbered
  live e he x hx := by
    rw [find?_put_of_ne l b' (hno e he)] at hx
    exact h.live e he x hx
  once := h.once

theorem put_held (h : Lists given l entries) (hb : l.find? b'.id = some b)
    (hw : b.status.holdsWorker = true) (hw' : b'.status.holdsWorker = true) :
    Lists given (l.put b') entries := by
  have hid := id_of_find? hb
  refine h.put_unlisted (fun e he => ?_) (fun hq => by rw [hq] at hw'; cases hw')
  rw [← hid]
  exact h.not_listed (by rw [hid, hb]) hw he

/-- A build without entries waits, and gets one. -/
theorem insert (h : Lists given l entries) (hno : ∀ e ∈ entries, e.build ≠ b.id)
    (hnum : Numbered given b.id b.sequence) (hq : b.status = .queued) :
    Lists given (l.put b) (b.entry :: entries) where
  waits := forall_find?_put
    (fun id x hx hxq => List.mem_cons_of_mem _ (h.waits id x hx hxq)) fun _ => List.mem_cons_self
  numbered e he := by
    rcases List.mem_cons.1 he with rfl | he
    · exact hnum
    · exact h.numbered e he
  live e he x hx := by
    rcases List.mem_cons.1 he with rfl | he
    · rw [show b.entry.build = b.id from rfl, find?_put_self] at hx
      cases hx
      exact .inr ⟨hq, rfl⟩
    · rw [find?_put_of_ne l b (hno e he)] at hx
      exact h.live e he x hx
  once := by
    rw [List.map_cons, List.nodup_cons]
    refine ⟨fun hmem => ?_, h.once⟩
    obtain ⟨e, he, hseq⟩ := List.mem_map.1 hmem
    have hnum' := h.numbered e he
    rw [hseq] at hnum'
    exact hno e he (hnum'.id_eq hnum)

/-- A build that loses its worker gets its entry back. -/
theorem requeue (h : Lists given l entries) (hnum : Numbered given b'.id b'.sequence)
    (hb : l.find? b'.id = some b) (hw : b.status.holdsWorker = true) (hq : b'.status = .queued) :
    Lists given (l.put b') (b'.entry :: entries) := by
  refine h.insert (fun e he => ?_) hnum hq
  have hid := id_of_find? hb
  rw [← hid]
  exact h.not_listed (by rw [hid, hb]) hw he

/-- A build that ends may leave its entry behind. -/
theorem finish (h : Lists given l entries) (hend : b'.isTerminal = true) :
    Lists given (l.put b') entries where
  waits := forall_find?_put h.waits fun hxq => absurd hxq (Build.ne_queued_of_isTerminal hend)
  numbered := h.numbered
  live e he x hx := by
    rw [find?_put] at hx
    split at hx
    · cases hx
      exact .inl hend
    · exact h.live e he x hx
  once := h.once

theorem evict (h : Lists given l entries) : Lists given l.evict entries where
  waits := forall_find?_evict h.waits
  numbered := h.numbered
  live e he x hx := by
    rw [find?_evict] at hx
    split at hx
    · cases hx
    · exact h.live e he x hx
  once := h.once

theorem archive (h : Lists given l entries) (hend : b'.isTerminal = true) :
    Lists given (l.archive b') entries := by
  refine evict (l := { l.put b' with
    counters := l.counters.countEnd b'.status, history := l.history ++ [b'.id] }) ?_
  exact (h.finish hend).of_find?_eq fun _ => rfl

/-- The build whose entry was taken off is given to a worker. -/
theorem assign (h : Lists given l (b.entry :: entries)) (hb : l.find? b.id = some b)
    (hq : b.status = .queued) (hid : b'.id = b.id) (hq' : b'.status ≠ .queued) :
    Lists given (l.put b') entries where
  waits id x hx hxq := by
    rw [find?_put] at hx
    split at hx
    · cases hx
      exact absurd hxq hq'
    · rename_i hne
      rcases List.mem_cons.1 (h.waits id x hx hxq) with heq | hmem
      · have hxid : x.id = b.id := congrArg Entry.build heq
        exact absurd ((id_of_find? hx).symm.trans (hxid.trans hid.symm)) hne
      · exact hmem
  numbered x hx := h.numbered x (List.mem_cons_of_mem _ hx)
  live e he x hx := by
    have hmem := List.mem_cons_of_mem b.entry he
    rw [find?_put] at hx
    split at hx
    · rename_i heq
      obtain rfl := h.eq_entry hmem (by rw [heq, hid, hb]) hq
      exact absurd rfl (h.not_mem_of_cons he)
    · exact h.live e hmem x hx
  once := (List.nodup_cons.1 (List.map_cons ▸ h.once)).2

/-- A new build gets its entry. -/
theorem add (h : Lists given l entries) (hnew : b.id ∉ given)
    (hnum : Numbered (given ++ [b.id]) b.id b.sequence) (hq : b.status = .queued) :
    Lists (given ++ [b.id]) (l.put b) (b.entry :: entries) := by
  have hlater : Lists (given ++ [b.id]) l entries :=
    ⟨h.waits, fun e he => (h.numbered e he).append [b.id], h.live, h.once⟩
  exact hlater.insert (fun e he hid => hnew (hid ▸ (h.numbered e he).mem)) hnum hq

end Lists

/-! ## Taking builds off -/

/-- The entries of queued builds, in the order in which they come off. -/
def waiting (l : Ledger) : List Entry := l.backlog.drain.filter fun e => l.isQueued e.build

/-- Takes queued builds off the backlog, at most this many. -/
def drainQueuedSteps : Nat → Ledger → List Entry
  | 0, _ => []
  | fuel + 1, l =>
    match l.popQueued with
    | (none, _) => []
    | (some e, l) => e :: drainQueuedSteps fuel l

/-- Takes queued builds off the backlog until there is none left. -/
def drainQueued (l : Ledger) : List Entry := drainQueuedSteps l.backlog.size l

theorem popQueued_found (l : Ledger) : l.popQueued.1 = l.waiting.head? := by
  rw [waiting, List.head?_filter]
  exact Backlog.found_popFirst _ _

theorem tail_filter_eq (p : Entry → Bool) (es : List Entry) :
    (es.filter p).tail = (es.dropWhile fun e => !p e).tail.filter p := by
  induction es with
  | nil => rfl
  | cons e rest ih => cases hp : p e <;> simp [hp, ih]

theorem waiting_popQueued (l : Ledger) : l.popQueued.2.waiting = l.waiting.tail := by
  rw [waiting, waiting, tail_filter_eq, ← Backlog.drain_rest_popFirst]
  rfl

theorem drainQueuedSteps_eq (fuel : Nat) (l : Ledger) :
    drainQueuedSteps fuel l = l.waiting.take fuel := by
  induction fuel generalizing l with
  | zero => rfl
  | succ fuel ih =>
    have hfound := popQueued_found l
    have hrest := waiting_popQueued l
    cases hp : l.popQueued with
    | mk found rest =>
      rw [hp] at hfound hrest
      simp only at hfound hrest
      cases hw : l.waiting with
      | nil =>
        rw [hw] at hfound
        simp [drainQueuedSteps, hp, hfound]
      | cons e es =>
        rw [hw] at hfound hrest
        simp [drainQueuedSteps, hp, hfound, ih, hrest]

/-- Draining the ledger gives the waiting entries. -/
theorem drainQueued_eq_waiting (l : Ledger) : l.drainQueued = l.waiting := by
  rw [drainQueued, drainQueuedSteps_eq, List.take_of_length_le]
  have hlen := List.length_filter_le (fun e => l.isQueued e.build) l.backlog.drain
  rw [(Backlog.perm_drain l.backlog).length_eq, ← Backlog.size_eq_length] at hlen
  exact hlen

/-- What is taken off was in the backlog, and what is dropped on the way was not queued. -/
theorem popQueued_perm (l : Ledger) :
    ∃ dead, l.backlog.toList.Perm
        (dead ++ (l.popQueued.1.toList ++ l.popQueued.2.backlog.toList)) ∧
      ∀ e ∈ dead, l.isQueued e.build = false :=
  Backlog.perm_popFirst _ _

/-! ## The order of service -/

/-- The queued builds, the highest priority first, and of one priority the first submitted first. -/
def queue (l : Ledger) : List Build :=
  (l.builds.toList.filter (·.status == .queued)).mergeSort fun a b => !b.entry.before a.entry

theorem mem_queue_iff : b ∈ l.queue ↔ l.find? b.id = some b ∧ b.status = .queued := by
  rw [queue, List.mem_mergeSort, List.mem_filter, Catalog.mem_toList, mem_builds_iff]
  simp

theorem nodup_queue (l : Ledger) : l.queue.Nodup :=
  (List.mergeSort_perm _ _).nodup_iff.2 (l.builds.nodup_items.sublist List.filter_sublist)

theorem nodup_queue_ids (l : Ledger) : (l.queue.map Build.id).Nodup := by
  refine List.pairwise_map.2 ((nodup_queue l).imp_of_mem fun {a b} ha hb hne heq => hne ?_)
  have hfind := (mem_queue_iff.1 ha).1
  rw [heq, (mem_queue_iff.1 hb).1] at hfind
  exact (Option.some.inj hfind).symm

theorem queue_ordered (h : Records given l) :
    l.queue.Pairwise fun a b => a.entry.before b.entry = true := by
  have hsorted : l.queue.Pairwise fun a b => (!b.entry.before a.entry) = true := by
    refine List.pairwise_mergeSort ?_ ?_ _
    · intro a b c hab hbc
      rw [Bool.not_eq_true'] at *
      exact Entry.not_before_trans hab hbc
    · intro a b
      rw [Bool.or_eq_true, Bool.not_eq_true', Bool.not_eq_true']
      exact (Entry.not_before_or b.entry a.entry)
  refine (hsorted.and (nodup_queue l)).imp_of_mem fun {a b} ha hb hab => ?_
  refine Entry.before_of_sequence_ne (by simpa using hab.1) fun hseq => hab.2 ?_
  exact h.eq_of_sequence_eq (mem_queue_iff.1 ha).1 (mem_queue_iff.1 hb).1 hseq

/-- A list of builds in this order is determined by which builds it has. -/
theorem eq_of_ordered {as bs : List Build}
    (has : as.Pairwise fun a b => a.entry.before b.entry = true)
    (hbs : bs.Pairwise fun a b => a.entry.before b.entry = true)
    (hmem : ∀ b, b ∈ as ↔ b ∈ bs) : as = bs := by
  have hnodup : ∀ cs : List Build,
      (cs.Pairwise fun a b => a.entry.before b.entry = true) → cs.Nodup := by
    refine fun cs hcs => hcs.imp ?_
    rintro a b hab rfl
    rw [Entry.before_irrefl] at hab
    cases hab
  have hperm := (List.perm_ext_iff_of_nodup (hnodup as has) (hnodup bs hbs)).2 hmem
  refine hperm.eq_of_pairwise (fun a b _ _ hab hba => ?_) has hbs
  have hself := Entry.before_trans hab hba
  rw [Entry.before_irrefl] at hself
  cases hself

theorem queuedCount_eq (l : Ledger) : l.queuedCount = l.queue.length := by
  rw [queue, List.length_mergeSort, ← List.countP_eq_length_filter]
  rfl

/-- In a sound ledger the waiting entries are those of the queued builds, in their order. -/
theorem waiting_eq_queue (hr : Records given l) (h : Lists given l l.backlog.toList) :
    l.waiting = l.queue.map Build.entry := by
  have hordered : (l.queue.map Build.entry).Pairwise fun a b => a.before b = true :=
    List.pairwise_map.2 (queue_ordered hr)
  refine Backlog.eq_of_perm_of_ordered ?_ ((Backlog.drain_ordered l.backlog).filter _) hordered
  refine ((Backlog.perm_drain l.backlog).filter _).trans ?_
  refine (List.perm_ext_iff_of_nodup (h.nodup.sublist List.filter_sublist) ?_).2 fun e => ?_
  · refine hordered.imp ?_
    rintro a b hab rfl
    rw [Entry.before_irrefl] at hab
    cases hab
  · rw [List.mem_filter, List.mem_map, isQueued, Option.any_eq_true]
    constructor
    · rintro ⟨he, b, hb, hq⟩
      have hq : b.status = .queued := by simpa using hq
      obtain rfl := h.eq_entry he hb hq
      exact ⟨b, mem_queue_iff.2 ⟨hb, hq⟩, rfl⟩
    · rintro ⟨b, hb, rfl⟩
      obtain ⟨hfind, hq⟩ := mem_queue_iff.1 hb
      exact ⟨h.waits b.id b hfind hq, b, hfind, by simp [hq]⟩

end Ledger

end BuildPool
