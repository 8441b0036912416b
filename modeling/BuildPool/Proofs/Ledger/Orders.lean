import BuildPool.Proofs.Backlog.Service
import BuildPool.Proofs.Ledger.Recovery

/-!
# The order of builds

A ledger goes through its builds to list them, to write its image, and to find those that are with
workers. The order in which it does so is not fixed by what it is asked, and nor is the order in
which an image lists its builds. It makes no difference, because the answers are sorted and no two
builds have one sequence number.
-/

namespace BuildPool

open BuildPool.Time

namespace Ledger

variable {given : List BuildId} {l l' : Ledger} {as bs : List Build} {es : List Entry} {b : Build}
  {id : BuildId} {w : WorkerId} {now : Instant}

/-! ## Builds in any order -/

/-- The listing, if the builds are gone through in this order. -/
def listIn (bs : List Build) (status : Option BuildStatus) (limit : Nat) : List Build :=
  (bySequence (bs.filter fun b => status.all (b.status == ·))).take limit

def imageIn (bs : List Build) (l : Ledger) : Image := { l.toImage with builds := bySequence bs }

def inFlightIn (bs : List Build) : List (BuildId × WorkerId) :=
  (bySequence (bs.filter (·.status.holdsWorker))).filterMap fun b => b.worker.map (b.id, ·)

/-- The answers of the ledger are the same in whatever order it goes through its builds. -/
structure AnyOrder (l : Ledger) : Prop where
  lists : ∀ bs, bs.Perm l.builds.toList → ∀ status limit, listIn bs status limit = l.list status limit
  images : ∀ bs, bs.Perm l.builds.toList → imageIn bs l = l.toImage
  recovers : ∀ bs, bs.Perm l.builds.toList → inFlightIn bs = l.inFlight

/-- No two builds of a list have one number. -/
def Distinct (bs : List Build) : Prop :=
  ∀ a ∈ bs, ∀ b ∈ bs, a.sequence = b.sequence → a = b

theorem Distinct.filter (h : Distinct bs) (p : Build → Bool) : Distinct (bs.filter p) :=
  fun a ha b hb => h a (List.mem_of_mem_filter ha) b (List.mem_of_mem_filter hb)

theorem bySequence_eq_of_ordered (h : Distinct bs) (hperm : as.Perm bs)
    (hordered : as.Pairwise fun a b => a.sequence ≤ b.sequence) : bySequence bs = as := by
  have hsorted : (bySequence bs).Perm as := (List.mergeSort_perm bs _).trans hperm.symm
  refine hsorted.eq_of_pairwise (fun a b ha hb hab hba => ?_) (bySequence_ordered bs) hordered
  exact h a (mem_bySequence.1 ha) b (hperm.mem_iff.1 hb) (Nat.le_antisymm hab hba)

theorem bySequence_eq_of_perm (h : Distinct bs) (hperm : as.Perm bs) :
    bySequence as = bySequence bs :=
  (bySequence_eq_of_ordered h ((List.mergeSort_perm as _).trans hperm) (bySequence_ordered as)).symm

theorem anyOrder_of_distinct (h : Distinct l.builds.toList) : l.AnyOrder where
  lists bs hperm status limit :=
    congrArg (List.take limit) (bySequence_eq_of_perm (h.filter _) (hperm.filter _))
  images bs hperm := by
    unfold imageIn
    rw [bySequence_eq_of_perm h hperm]
    rfl
  recovers bs hperm :=
    congrArg (List.filterMap _) (bySequence_eq_of_perm (h.filter _) (hperm.filter _))

/-! ## Numbers that are kept -/

/-- No two entries of a list have one number. -/
def DistinctEntries (es : List Entry) : Prop :=
  ∀ e ∈ es, ∀ f ∈ es, e.sequence = f.sequence → e = f

/-- Whatever the ledger has, build or place in the queue, has its id and its number from this
list. -/
structure DrawnFrom (es : List Entry) (l : Ledger) : Prop where
  builds : ∀ id b, l.find? id = some b → b.entry ∈ es
  backlog : ∀ e ∈ l.backlog.toList, e ∈ es

theorem DrawnFrom.evict (h : DrawnFrom es l) : DrawnFrom es l.evict :=
  ⟨forall_find?_evict h.builds, h.backlog⟩

theorem DrawnFrom.put (h : DrawnFrom es l) (hb : b.entry ∈ es) : DrawnFrom es (l.put b) where
  builds id x hx := by
    rw [find?_put] at hx
    split at hx
    · cases hx
      exact hb
    · exact h.builds id x hx
  backlog := h.backlog

theorem DrawnFrom.enqueue (h : DrawnFrom es l) (hb : b.entry ∈ es) :
    DrawnFrom es (l.enqueue b) where
  builds := h.builds
  backlog e he := by
    rcases List.mem_cons.1 ((Backlog.perm_push l.backlog b.entry).mem_iff.1 he) with rfl | he
    · exact hb
    · exact h.backlog e he

theorem DrawnFrom.lose (h : DrawnFrom es l) (id : BuildId) (w : WorkerId) (now : Instant) :
    DrawnFrom es (l.lose id w now).2 := by
  rcases lose_cases l id w now with ⟨-, heq⟩ | ⟨b, hb, -, ⟨-, heq⟩ | ⟨-, heq⟩⟩
  · rw [heq]
    exact h
  · have hentry : b.entry ∈ es := h.builds id b hb
    have hput := h.put (b := { b with retries := l.maxRetries }.finish .failed
      (.failure retriesExhausted) now) hentry
    rw [heq]
    exact DrawnFrom.evict ⟨hput.builds, hput.backlog⟩
  · have hentry : b.entry ∈ es := h.builds id b hb
    have hput := h.put (b := { b with retries := b.retries + 1 }.requeue) hentry
    have hqueued := hput.enqueue (b := { b with retries := b.retries + 1 }.requeue) hentry
    rw [heq]
    exact ⟨hqueued.builds, hqueued.backlog⟩

theorem DrawnFrom.loseAll (h : DrawnFrom es l) (now : Instant)
    (pairs : List (BuildId × WorkerId)) : DrawnFrom es (loseAll now pairs l).2 := by
  induction pairs generalizing l with
  | nil => exact h
  | cons pair rest ih => exact ih (h.lose pair.1 pair.2 now)

theorem DrawnFrom.distinct (h : DrawnFrom es l) (hes : DistinctEntries es) :
    Distinct l.builds.toList := by
  intro a ha b hb hseq
  have hentry := hes a.entry (h.builds a.id a (mem_builds_iff.1 ha)) b.entry
    (h.builds b.id b (mem_builds_iff.1 hb)) hseq
  have hid : a.id = b.id := congrArg Entry.build hentry
  exact Catalog.eq_of_key_eq ha hb (congrArg BuildId.text hid)

/-! ## Ledgers with the same entries -/

/-- The ledgers differ in nothing but the way in which their backlogs keep the same entries. -/
def Matches : Ledger → Ledger → Prop := AlikeBy fun q q' => q'.toList.Perm q.toList

theorem Matches.loseAll (h : Matches l l') (now : Instant) (pairs : List (BuildId × WorkerId)) :
    (Ledger.loseAll now pairs l').1 = (Ledger.loseAll now pairs l).1 ∧
      Matches (Ledger.loseAll now pairs l).2 (Ledger.loseAll now pairs l').2 := by
  refine AlikeBy.loseAll (fun q q' e hperm => ?_) h now pairs
  exact (Backlog.perm_push q' e).trans ((hperm.cons e).trans (Backlog.perm_push q e).symm)

theorem Matches.evict (h : Matches l l') : Matches l.evict l'.evict := by
  obtain ⟨q, hperm, rfl⟩ := h
  exact ⟨q, hperm, rfl⟩

theorem Matches.toImage_eq (h : Matches l l') : l'.toImage = l.toImage := by
  obtain ⟨q, -, rfl⟩ := h
  rfl

theorem Matches.drain_eq (h : Matches l l') (hl : DrawnFrom es l) (hes : DistinctEntries es) :
    l'.backlog.drain = l.backlog.drain := by
  obtain ⟨q, hperm, rfl⟩ := h
  refine Backlog.drain_eq_of_perm (fun a ha b hb hkey => ?_) hperm.symm
  exact hes a (hl.backlog a ha) b (hl.backlog b hb) (congrArg Prod.snd hkey)

theorem Matches.drainQueued_eq (h : Matches l l') (hl : DrawnFrom es l) (hes : DistinctEntries es) :
    l'.drainQueued = l.drainQueued := by
  have hdrain := h.drain_eq hl hes
  obtain ⟨q, -, rfl⟩ := h
  rw [drainQueued_eq_waiting, drainQueued_eq_waiting, waiting, waiting, hdrain]
  rfl

/-! ## Images with their builds in another order -/

section
variable {image : Image} {maxRetries historyLimit : Nat}

theorem lastSequence_eq_of_perm (hperm : as.Perm bs) : lastSequence as = lastSequence bs :=
  (hperm.map Build.sequence).foldl_eq' (fun _ _ _ _ _ => Nat.max_right_comm _ _ _) 0

theorem builds_reopen_of_perm (hids : (image.builds.map Build.id).Nodup)
    (hperm : image.builds.Perm bs) (maxRetries historyLimit : Nat) :
    (reopen { image with builds := bs } maxRetries historyLimit).builds =
      (reopen image maxRetries historyLimit).builds := by
  have honce : ∀ a ∈ image.builds, ∀ b ∈ image.builds, a.key = b.key → a = b :=
    fun a ha b hb hkey => List.inj_on_of_nodup_map hids ha hb (BuildId.text_inj.1 hkey)
  have honce' : ∀ a ∈ bs, ∀ b ∈ bs, a.key = b.key → a = b :=
    fun a ha b hb => honce a (hperm.mem_iff.2 ha) b (hperm.mem_iff.2 hb)
  refine Catalog.ext_find? fun k => Option.ext fun b => ?_
  unfold reopen
  simp only [builds_foldl_enter]
  refine (Catalog.find?_ofList_eq_some_iff honce').trans ?_
  rw [← hperm.mem_iff]
  exact (Catalog.find?_ofList_eq_some_iff honce).symm

theorem matches_reopen (hids : (image.builds.map Build.id).Nodup) (hperm : image.builds.Perm bs)
    (maxRetries historyLimit : Nat) : Matches (reopen image maxRetries historyLimit)
      (reopen { image with builds := bs } maxRetries historyLimit) := by
  have hbuilds := builds_reopen_of_perm hids hperm maxRetries historyLimit
  have hhistory : (reopen { image with builds := bs } maxRetries historyLimit).history =
      (reopen image maxRetries historyLimit).history := by
    refine List.filter_congr fun id _ => ?_
    exact congrArg (fun c : Catalog Build Build.key => (c.find? id.text).any Build.isTerminal)
      hbuilds
  have hnext : (reopen { image with builds := bs } maxRetries historyLimit).nextSequence =
      (reopen image maxRetries historyLimit).nextSequence := by
    change max image.nextSequence (lastSequence bs + 1) =
      max image.nextSequence (lastSequence image.builds + 1)
    rw [lastSequence_eq_of_perm hperm]
  have hlimits := limits_reopen image maxRetries historyLimit
  have hlimits' := limits_reopen { image with builds := bs } maxRetries historyLimit
  refine ⟨(reopen { image with builds := bs } maxRetries historyLimit).backlog, ?_, ?_⟩
  · have hqueued := (hperm.symm.filter (·.status == .queued)).map Build.entry
    refine (backlog_foldl_enter bs (empty maxRetries historyLimit)).trans ?_
    refine (hqueued.append_right _).trans ?_
    exact (backlog_foldl_enter image.builds (empty maxRetries historyLimit)).symm
  · have hretries := hlimits'.1.trans hlimits.1.symm
    have hlimit := hlimits'.2.trans hlimits.2.symm
    have hcounters : (reopen { image with builds := bs } maxRetries historyLimit).counters =
        (reopen image maxRetries historyLimit).counters := rfl
    rw [← hbuilds, ← hhistory, ← hnext, ← hcounters, ← hretries, ← hlimit]

theorem drawnFrom_reopen (image : Image) (maxRetries historyLimit : Nat) :
    DrawnFrom (image.builds.map Build.entry) (reopen image maxRetries historyLimit) where
  builds id b hb := by
    rw [find?_reopen_image] at hb
    exact List.mem_map_of_mem (List.mem_reverse.1 (List.mem_of_find?_eq_some hb))
  backlog e he := by
    have he := (backlog_foldl_enter image.builds (empty maxRetries historyLimit)).mem_iff.1 he
    rw [show (empty maxRetries historyLimit).backlog.toList = [] from rfl, List.append_nil] at he
    obtain ⟨b, hb, rfl⟩ := List.mem_map.1 he
    exact List.mem_map_of_mem (List.mem_of_mem_filter hb)

theorem drawnFrom_ofImage (image : Image) (maxRetries historyLimit : Nat) (now : Instant) :
    DrawnFrom (image.builds.map Build.entry) (ofImage image maxRetries historyLimit now).2 :=
  ((drawnFrom_reopen image maxRetries historyLimit).loseAll now _).evict

/-- The ledger of an image does not depend on the order of its builds, and nor does what became of
those that were with workers. -/
theorem matches_ofImage (hids : (image.builds.map Build.id).Nodup) (hperm : image.builds.Perm bs)
    (maxRetries historyLimit : Nat) (now : Instant) :
    (ofImage { image with builds := bs } maxRetries historyLimit now).1 =
        (ofImage image maxRetries historyLimit now).1 ∧
      Matches (ofImage image maxRetries historyLimit now).2
        (ofImage { image with builds := bs } maxRetries historyLimit now).2 := by
  have hflight : (reopen { image with builds := bs } maxRetries historyLimit).inFlight =
      (reopen image maxRetries historyLimit).inFlight := by
    unfold inFlight
    rw [builds_reopen_of_perm hids hperm]
  have hreopen := matches_reopen hids hperm maxRetries historyLimit
  unfold ofImage
  dsimp only
  rw [hflight]
  obtain ⟨hlosses, hlost⟩ := hreopen.loseAll now (reopen image maxRetries historyLimit).inFlight
  exact ⟨hlosses, hlost.evict⟩

end

/-! ## The order of submission -/

/-- The builds that are kept, in the order in which they were submitted. -/
def retained (l : Ledger) (given : List BuildId) : List Build := given.filterMap l.find?

theorem retained_ordered (h : Records given l) (hgiven : given.Nodup) :
    (l.retained given).Pairwise fun a b => a.sequence < b.sequence := by
  have hplace : ∀ (i : Nat) (hi : i < given.length) (b : Build),
      l.find? given[i] = some b → b.sequence = i + 1 := by
    intro i hi b hb
    obtain ⟨hpos, hget⟩ := h.numbered given[i] b hb
    obtain ⟨hlt, heq⟩ := List.getElem?_eq_some_iff.1 hget
    have hsame := (hgiven.getElem_inj_iff).1 heq
    omega
  refine List.pairwise_filterMap.2 (List.pairwise_iff_getElem.2 fun i j hi hj hij a ha b hb => ?_)
  rw [hplace i hi a ha, hplace j hj b hb]
  omega

theorem mem_retained (h : Records given l) : b ∈ l.retained given ↔ b ∈ l.builds.toList := by
  rw [retained, List.mem_filterMap, Catalog.mem_toList, mem_builds_iff]
  constructor
  · rintro ⟨id, -, hb⟩
    rw [id_of_find? hb, hb]
  · intro hb
    exact ⟨b.id, (h.numbered b.id b hb).mem, hb⟩

theorem Records.distinct (h : Records given l) : Distinct l.builds.toList :=
  fun _ ha _ hb => h.eq_of_sequence_eq (mem_builds_iff.1 ha) (mem_builds_iff.1 hb)

/-- Sorting by number is the order of submission. -/
theorem bySequence_filter (h : Records given l) (hgiven : given.Nodup) (p : Build → Bool) :
    bySequence (l.builds.toList.filter p) = (l.retained given).filter p := by
  have hordered := retained_ordered h hgiven
  have hnodup : (l.retained given).Nodup := hordered.imp fun hlt heq => by
    rw [heq] at hlt
    exact Nat.lt_irrefl _ hlt
  have hperm : (l.retained given).Perm l.builds.toList :=
    (List.perm_ext_iff_of_nodup hnodup l.builds.nodup_items).2 fun b => mem_retained h
  refine bySequence_eq_of_ordered (h.distinct.filter p) (hperm.filter p) ?_
  exact (hordered.imp Nat.le_of_lt).filter p

end Ledger

end BuildPool
