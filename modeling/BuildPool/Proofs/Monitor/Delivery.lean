import Mathlib.Data.List.Induction
import Mathlib.Data.List.Sort
import BuildPool.Monitor.Forwarder

/-!
# What the monitor is handed

Events are published while the forwarder takes them off the channel, in any interleaving. Whatever
the monitor makes of them, it is handed each event once and in order, and all but those that were
overwritten because more were waiting than there is room for.
-/

namespace BuildPool.Monitor

/-! ## The channel -/

/-- The channel keeps the last of these events, as many as there is room for. -/
structure Channel.Keeps (c : Channel) (events : List Event) : Prop where
  count : c.published = events.length
  kept : c.kept = events.drop (events.length - c.room)

namespace Channel.Keeps

variable {c : Channel} {events : List Event}

theorem publish (h : c.Keeps events) (e : Event) : (c.publish e).Keeps (events ++ [e]) where
  count := by simp [Channel.publish, h.count]
  kept := by
    simp only [Channel.publish, h.kept, List.length_append, List.length_drop, List.length_singleton]
    rw [← List.drop_append_of_le_length (by omega), List.drop_drop]
    congr 1
    omega

theorem oldest (h : c.Keeps events) : c.oldest = events.length - c.room := by
  rw [Channel.oldest, h.count, h.kept, List.length_drop]
  omega

/-- Which event comes next can be told from all that were published. -/
theorem receive (h : c.Keeps events) (next : Nat) :
    c.receive next =
      if next < c.oldest then (.missed (c.oldest - next), c.oldest)
      else match events[next]? with
        | some e => (.event e, next + 1)
        | none => (if c.isClosed then .closed else .nothing, next) := by
  unfold Channel.receive
  split
  · rfl
  · next hle =>
    have hnext : c.kept[next - c.oldest]? = events[next]? := by
      rw [h.oldest] at hle ⊢
      rw [h.kept, List.getElem?_drop, Nat.add_sub_cancel' (Nat.le_of_not_lt hle)]
    cases hevent : events[next]? with
    | none => simp only [hnext, hevent]
    | some e => simp only [hnext, hevent]

/-- What the forwarder can come to by taking what is next. -/
theorem step_induction {P : Forwarder → Prop} {f : Forwarder} {accepts : Event → Bool}
    (h : c.Keeps events) (stopped : f.hasStopped = true → P f)
    (behind : f.hasStopped = false → f.next < c.oldest → P { f with next := c.oldest })
    (event : ∀ e, f.hasStopped = false → c.oldest ≤ f.next → events[f.next]? = some e →
      P { f with
        next := f.next + 1
        sent := f.sent ++ [e]
        refused := f.refused + if accepts e then 0 else 1 })
    (done : f.hasStopped = false → events.length ≤ f.next → c.isClosed = true →
      P { f with hasStopped := true })
    (idle : c.isClosed = false → P f) : P (f.step accepts c) := by
  unfold Forwarder.step
  split
  · next hstopped => exact stopped hstopped
  · next hgoing =>
    rw [Bool.not_eq_true] at hgoing
    rw [h.receive]
    by_cases hbehind : f.next < c.oldest
    · rw [if_pos hbehind]
      exact behind hgoing hbehind
    · rw [if_neg hbehind]
      cases hnext : events[f.next]? with
      | some e => exact event e hgoing (Nat.not_lt.1 hbehind) hnext
      | none =>
        have hend := List.getElem?_eq_none_iff.1 hnext
        cases hclosed : c.isClosed with
        | true => exact done hgoing hend hclosed
        | false => exact idle hclosed

end Channel.Keeps

/-! ## What is still to come -/

namespace Channel

variable {c : Channel} {events : List Event} {next : Nat}

/-- The events that the channel still has for a forwarder. -/
def due (c : Channel) (events : List Event) (next : Nat) : List Event :=
  events.drop (max next c.oldest)

theorem due_eq_nil (h : events.length ≤ next) : c.due events next = [] :=
  List.drop_of_length_le (Nat.le_trans h (Nat.le_max_left _ _))

theorem due_oldest (h : next < c.oldest) : c.due events c.oldest = c.due events next := by
  rw [due, due, Nat.max_self, Nat.max_eq_right (Nat.le_of_lt h)]

theorem due_of_getElem? {e : Event} (hle : c.oldest ≤ next) (hnext : events[next]? = some e) :
    c.due events next = e :: c.due events (next + 1) := by
  obtain ⟨hlt, rfl⟩ := List.getElem?_eq_some_iff.1 hnext
  rw [due, due, Nat.max_eq_left hle, Nat.max_eq_left (by omega)]
  exact List.drop_eq_getElem_cons hlt

/-- It is what the channel keeps, without what was taken before. -/
theorem Keeps.due_eq (h : c.Keeps events) (next : Nat) :
    c.due events next = c.kept.drop (next - c.oldest) := by
  rw [due, h.kept, List.drop_drop, ← h.oldest]
  congr 1
  omega

end Channel

namespace Forwarder

variable {c : Channel} {events : List Event} {f : Forwarder}

/-- How often the forwarder takes something until it is done: what it missed, each event that the
channel has for it, and the end. -/
def work (c : Channel) (events : List Event) (f : Forwarder) : Nat :=
  (if f.next < c.oldest then 1 else 0) + (c.due events f.next).length +
    if f.hasStopped then 0 else 1

/-- The forwarder did not stop before it had everything. -/
def Finishes (events : List Event) (f : Forwarder) : Prop :=
  f.hasStopped = true → events.length ≤ f.next

/-- On a closed channel each step brings the forwarder nearer to its end. -/
theorem step_closed (h : c.Keeps events) (hclosed : c.isClosed = true) (hf : f.Finishes events)
    (accepts : Event → Bool) :
    (f.step accepts c).Finishes events ∧
      work c events (f.step accepts c) = work c events f - 1 ∧
      (f.step accepts c).sent ++ c.due events (f.step accepts c).next =
        f.sent ++ c.due events f.next := by
  have hold := h.oldest
  refine h.step_induction (P := fun g => g.Finishes events ∧ work c events g = work c events f - 1 ∧
    g.sent ++ c.due events g.next = f.sent ++ c.due events f.next)
    ?stopped ?behind ?event ?done ?idle
  case stopped =>
    intro hstopped
    have hend := hf hstopped
    have hbehind : ¬ f.next < c.oldest := by omega
    refine ⟨hf, ?_, rfl⟩
    simp [work, Channel.due_eq_nil hend, hstopped, hbehind]
  case behind =>
    intro hgoing hbehind
    refine ⟨fun hs => ?_, ?_, ?_⟩
    · simp [hgoing] at hs
    · simp only [work, Channel.due_oldest hbehind, hgoing, if_neg (Nat.lt_irrefl c.oldest),
        if_pos hbehind]
      omega
    · rw [Channel.due_oldest hbehind]
  case event =>
    intro e hgoing hle hnext
    have hdue := Channel.due_of_getElem? hle hnext
    have hbehind : ¬ f.next < c.oldest := by omega
    have hbehind' : ¬ f.next + 1 < c.oldest := by omega
    refine ⟨fun hs => ?_, ?_, ?_⟩
    · simp [hgoing] at hs
    · simp [work, hdue, hgoing, hbehind, hbehind']
    · simp [hdue]
  case done =>
    intro hgoing hend _
    have hbehind : ¬ f.next < c.oldest := by omega
    refine ⟨fun _ => hend, ?_, rfl⟩
    simp [work, Channel.due_eq_nil hend, hgoing, hbehind]
  case idle =>
    intro hopen
    rw [hclosed] at hopen
    cases hopen

theorem work_le (h : c.Keeps events) (f : Forwarder) : work c events f ≤ c.kept.length + 2 := by
  have hdue : (c.due events f.next).length ≤ c.kept.length := by
    rw [h.due_eq, List.length_drop]
    omega
  unfold work
  split <;> split <;> omega

theorem work_eq_zero (h : work c events f = 0) :
    f.hasStopped = true ∧ c.due events f.next = [] := by
  unfold work at h
  refine ⟨?_, List.length_eq_zero_iff.1 (by omega)⟩
  cases hstopped : f.hasStopped with
  | true => rfl
  | false => simp [hstopped] at h

end Forwarder

/-! ## Publishing and forwarding -/

/-- A channel with its forwarder. -/
structure Link where
  channel : Channel
  forwarder : Forwarder := {}
  /-- All events that were published, the first in front. -/
  published : List Event := []

inductive Move
  | publish (e : Event)
  /-- The forwarder takes what is next; this is what the monitor makes of an event now. -/
  | take (accepts : Event → Bool)
  | close
  | stop

def Move.isTake : Move → Bool
  | .take _ => true
  | .publish _ | .close | .stop => false

namespace Link

def start (capacity : Nat) : Link := { channel := .withCapacity capacity }

/-- Nobody is left to publish on a channel that is closed. -/
def after (l : Link) : Move → Link
  | .publish e =>
    if l.channel.isClosed then l
    else { l with channel := l.channel.publish e, published := l.published ++ [e] }
  | .take accepts => { l with forwarder := l.forwarder.step accepts l.channel }
  | .close => { l with channel := l.channel.close }
  | .stop => { l with forwarder := l.forwarder.stop }

def afterAll (l : Link) (moves : List Move) : Link := moves.foldl after l

/-- All moves since the forwarder began to listen. -/
def run (capacity : Nat) (moves : List Move) : Link := (start capacity).afterAll moves

/-- More events wait than there is room for, and this one of them is overwritten. -/
structure Overrun (l : Link) (i : Nat) : Prop where
  waiting : l.forwarder.next ≤ i
  crowded : l.channel.room < l.published.length - l.forwarder.next
  overwritten : i < l.published.length - l.channel.room

variable {l : Link} {moves : List Move} {capacity : Nat} {lost lost' : Nat → Prop}
  {places : List Nat}

/-! ## What is handed over, and what is not -/

/-- The events at these places were handed over, and those that were passed over were lost. -/
structure Delivers (l : Link) (lost : Nat → Prop) (places : List Nat) : Prop where
  inOrder : places.Pairwise (· < ·)
  sent : l.forwarder.sent.map some = places.map (l.published[·]?)
  passed : ∀ i ∈ places, i < l.forwarder.next
  published : l.forwarder.next ≤ l.published.length
  missed : ∀ i < l.forwarder.next, i ∉ places → lost i

theorem Delivers.mono (h : l.Delivers lost places) (himp : ∀ i, lost i → lost' i) :
    l.Delivers lost' places :=
  { h with missed := fun i hi hout => himp i (h.missed i hi hout) }

theorem Delivers.publish (h : l.Delivers lost places) (e : Event) :
    (l.after (.publish e)).Delivers lost places := by
  simp only [after]
  split
  · exact h
  · have hlt : ∀ i ∈ places, i < l.published.length := fun i hi => by
      have := h.passed i hi
      have := h.published
      omega
    constructor
    case inOrder => exact h.inOrder
    case sent =>
      rw [h.sent]
      exact List.map_congr_left fun i hi => (List.getElem?_append_left (hlt i hi)).symm
    case passed => exact h.passed
    case published =>
      have := h.published
      simp only [List.length_append]
      omega
    case missed => exact h.missed

theorem Delivers.take (h : l.Delivers lost places) (hkeeps : l.channel.Keeps l.published)
    (hlost : ∀ i, l.Overrun i → lost i) (accepts : Event → Bool) :
    ∃ places, (l.after (.take accepts)).Delivers lost places := by
  simp only [after]
  refine hkeeps.step_induction (P := fun f => ∃ places, Delivers { l with forwarder := f } _ places)
    ?stopped ?behind ?event ?done ?idle
  case stopped => exact fun _ => ⟨places, h⟩
  case done => exact fun _ _ _ => ⟨places, h.inOrder, h.sent, h.passed, h.published, h.missed⟩
  case idle => exact fun _ => ⟨places, h⟩
  case behind =>
    intro _ hbehind
    rw [hkeeps.oldest] at hbehind ⊢
    refine ⟨places, h.inOrder, h.sent, fun i hi => ?_, Nat.sub_le _ _, fun i hi hout => ?_⟩
    · exact Nat.lt_trans (h.passed i hi) hbehind
    · by_cases hbefore : i < l.forwarder.next
      · exact h.missed i hbefore hout
      · exact hlost i ⟨by omega, by omega, hi⟩
  case event =>
    intro e _ _ hnext
    obtain ⟨hlt, -⟩ := List.getElem?_eq_some_iff.1 hnext
    refine ⟨places ++ [l.forwarder.next], ?_, ?_, ?_, hlt, ?_⟩
    · exact List.pairwise_append.2 ⟨h.inOrder, List.pairwise_singleton _ _, by simpa using h.passed⟩
    · simp [h.sent, hnext]
    · intro i hi
      simp only [List.mem_append, List.mem_singleton] at hi
      rcases hi with hi | rfl
      · exact Nat.lt_succ_of_lt (h.passed i hi)
      · exact Nat.lt_succ_self _
    · intro i hi hout
      simp only [List.mem_append, List.mem_singleton, not_or] at hout
      exact h.missed i (Nat.lt_of_le_of_ne (Nat.le_of_lt_succ hi) hout.2) hout.1

/-- What is handed over is a part of what was published, in the same order. -/
theorem Delivers.sublist (h : l.Delivers lost places) :
    l.forwarder.sent.Sublist l.published := by
  have hsub : places.Sublist (List.range l.published.length) := by
    refine List.sublist_of_subperm_of_pairwise ?_ h.inOrder List.pairwise_lt_range
    refine List.subperm_of_subset (h.inOrder.imp Nat.ne_of_lt) fun i hi => ?_
    exact List.mem_range.2 (Nat.lt_of_lt_of_le (h.passed i hi) h.published)
  have hmap := hsub.map (l.published[·]?)
  have hall : (List.range l.published.length).map (l.published[·]?) = l.published.map some :=
    List.ext_getElem (by simp) (by simp)
  rw [← h.sent, hall] at hmap
  simpa using hmap.filterMap id

/-! ## Any moves -/

theorem run_snoc (capacity : Nat) (moves : List Move) (move : Move) :
    run capacity (moves ++ [move]) = (run capacity moves).after move := by
  simp [run, afterAll]

theorem keeps_after (h : l.channel.Keeps l.published) (move : Move) :
    (l.after move).channel.Keeps (l.after move).published := by
  cases move with
  | publish e =>
    simp only [after]
    split
    · exact h
    · exact h.publish e
  | take accepts => exact h
  | close => exact ⟨h.count, h.kept⟩
  | stop => exact h

theorem room_after (l : Link) (move : Move) : (l.after move).channel.room = l.channel.room := by
  cases move with
  | publish e => simp only [after]; split <;> rfl
  | take accepts => rfl
  | close => rfl
  | stop => rfl

theorem keeps_run (capacity : Nat) (moves : List Move) :
    (run capacity moves).channel.Keeps (run capacity moves).published := by
  induction moves using List.reverseRecOn with
  | nil => exact ⟨rfl, List.drop_nil.symm⟩
  | append_singleton moves move ih => rw [run_snoc]; exact keeps_after ih move

theorem room_run (capacity : Nat) (moves : List Move) :
    (run capacity moves).channel.room = capacity.nextPowerOfTwo := by
  induction moves using List.reverseRecOn with
  | nil => rfl
  | append_singleton moves move ih => rw [run_snoc, room_after, ih]

/-- At some point of these moves the event was overwritten, while more than there is room for were
waiting. -/
def Overwritten (capacity : Nat) (moves : List Move) (i : Nat) : Prop :=
  ∃ before, before <+: moves ∧ (run capacity before).Overrun i

theorem delivers_run (capacity : Nat) (moves : List Move) :
    ∃ places, (run capacity moves).Delivers (Overwritten capacity moves) places := by
  induction moves using List.reverseRecOn with
  | nil => exact ⟨[], .nil, rfl, by simp, Nat.le_refl _, fun i hi => absurd hi (Nat.not_lt_zero i)⟩
  | append_singleton moves move ih =>
    obtain ⟨places, h⟩ := ih
    have hprefix := List.prefix_append moves [move]
    replace h : (run capacity moves).Delivers (Overwritten capacity (moves ++ [move])) places :=
      h.mono fun i ⟨before, hbefore, hover⟩ => ⟨before, hbefore.trans hprefix, hover⟩
    rw [run_snoc]
    cases move with
    | publish e => exact ⟨places, h.publish e⟩
    | take accepts =>
      exact h.take (keeps_run capacity moves) (fun i hi => ⟨moves, hprefix, hi⟩) accepts
    | close => exact ⟨places, h.inOrder, h.sent, h.passed, h.published, h.missed⟩
    | stop => exact ⟨places, h.inOrder, h.sent, h.passed, h.published, h.missed⟩

/-! ## The end -/

/-- The forwarder stops by itself only when the channel is closed and has nothing left. -/
theorem stopped_run (hstop : .stop ∉ moves)
    (hstopped : (run capacity moves).forwarder.hasStopped = true) :
    (run capacity moves).channel.isClosed = true ∧
      (run capacity moves).published.length ≤ (run capacity moves).forwarder.next := by
  induction moves using List.reverseRecOn with
  | nil => cases hstopped
  | append_singleton moves move ih =>
    simp only [List.mem_append, List.mem_singleton, not_or] at hstop
    replace ih := ih hstop.1
    rw [run_snoc] at hstopped ⊢
    cases move with
    | publish e =>
      simp only [after] at hstopped ⊢
      split at hstopped
      · next hclosed => rw [if_pos hclosed]; exact ih hstopped
      · next hopen => exact absurd (ih hstopped).1 hopen
    | take accepts =>
      revert hstopped
      refine (keeps_run capacity moves).step_induction (P := fun f => f.hasStopped = true →
        _ ∧ (run capacity moves).published.length ≤ f.next) ?_ ?_ ?_ ?_ ?_
      · exact fun _ => ih
      · exact fun hgoing _ hs => absurd hs (by simp [hgoing])
      · exact fun e hgoing _ _ hs => absurd hs (by simp [hgoing])
      · exact fun _ hend hclosed _ => ⟨hclosed, hend⟩
      · exact fun _ => ih
    | close => exact ⟨rfl, (ih hstopped).2⟩
    | stop => exact absurd rfl hstop.2

/-- On a closed channel the forwarder goes on to its end, whatever happens in between. -/
theorem afterAll_closed (h : l.channel.Keeps l.published) (hclosed : l.channel.isClosed = true)
    (hf : l.forwarder.Finishes l.published) {more : List Move} (hstop : .stop ∉ more)
    (hmany : l.forwarder.work l.channel l.published ≤ more.countP Move.isTake) :
    (l.afterAll more).forwarder.hasStopped = true ∧ (l.afterAll more).forwarder.sent =
      l.forwarder.sent ++ l.channel.due l.published l.forwarder.next := by
  induction more generalizing l with
  | nil =>
    obtain ⟨hstopped, hdue⟩ := Forwarder.work_eq_zero (Nat.le_zero.1 hmany)
    exact ⟨hstopped, by rw [hdue, List.append_nil]; rfl⟩
  | cons move rest ih =>
    simp only [List.mem_cons, not_or] at hstop
    have hsame : l.after move = l → l.afterAll (move :: rest) = l.afterAll rest :=
      fun heq => congrArg (Link.afterAll · rest) heq
    cases move with
    | publish e =>
      rw [hsame (if_pos hclosed)]
      exact ih h hclosed hf hstop.2 hmany
    | take accepts =>
      obtain ⟨hf', hwork, hsent⟩ := Forwarder.step_closed h hclosed hf accepts
      have hcount : (Move.take accepts :: rest).countP Move.isTake =
          rest.countP Move.isTake + 1 := List.countP_cons_of_pos rfl
      have hless : (l.forwarder.step accepts l.channel).work l.channel l.published ≤
          rest.countP Move.isTake := by omega
      rw [← hsent]
      exact ih (l := l.after (.take accepts)) h hclosed hf' hstop.2 hless
    | close =>
      have hclose : l.channel.close = l.channel := by rw [Channel.close, ← hclosed]
      rw [hsame (congrArg (fun channel => { l with channel }) hclose)]
      exact ih h hclosed hf hstop.2 hmany
    | stop => exact absurd rfl hstop.1

/-! ## The whole run -/

/-- The events that these moves publish, up to the end of the channel. -/
def publishedBy : List Move → List Event
  | [] => []
  | .publish e :: rest => e :: publishedBy rest
  | .close :: _ => []
  | .take _ :: rest | .stop :: rest => publishedBy rest

theorem published_afterAll (l : Link) (moves : List Move) :
    (l.afterAll moves).published =
      l.published ++ if l.channel.isClosed then [] else publishedBy moves := by
  induction moves generalizing l with
  | nil => simp [afterAll, publishedBy]
  | cons move rest ih =>
    refine (ih (l.after move)).trans ?_
    cases move with
    | publish e =>
      simp only [after, publishedBy]
      split
      · next hclosed => simp
      · next hopen => simp [Channel.publish, hopen]
    | take accepts => rfl
    | close => simp [after, publishedBy, Channel.close]
    | stop => rfl

/-- The forwarder runs to its end on a channel that was closed. -/
structure HandsOverRest (l l' : Link) : Prop where
  stopped : l'.forwarder.hasStopped = true
  sent : l'.forwarder.sent =
    l.forwarder.sent ++ l.channel.kept.drop (l.forwarder.next - l.channel.oldest)

structure Forwards (capacity : Nat) (moves : List Move) : Prop where
  published : (run capacity moves).published = publishedBy moves
  /-- The channel keeps the newest events, and the room for them is a power of two. -/
  keeps : (run capacity moves).channel.Keeps (run capacity moves).published
  room : (run capacity moves).channel.room = capacity.nextPowerOfTwo
  /-- Each event is handed over once, in order, and only those that were overwritten are not. -/
  delivers : ∃ places, (run capacity moves).Delivers (Overwritten capacity moves) places
  sublist : (run capacity moves).forwarder.sent.Sublist (run capacity moves).published
  /-- As long as it is not told to stop, it goes on to the end of the channel. -/
  stopped : .stop ∉ moves → (run capacity moves).forwarder.hasStopped = true →
    (run capacity moves).channel.isClosed = true ∧
      (run capacity moves).published.length ≤ (run capacity moves).forwarder.next
  ends : .stop ∉ moves → ∀ more, .stop ∉ more →
    (run capacity moves).channel.kept.length + 2 ≤ more.countP Move.isTake →
      (run capacity moves).HandsOverRest (run capacity (moves ++ .close :: more))
  /-- So does its loop, which counts its steps. -/
  loop : .stop ∉ moves → ∀ accepts, (run capacity moves).HandsOverRest
    { (run capacity moves).after .close with
      forwarder := (run capacity moves).forwarder.run accepts (run capacity moves).channel.close }

theorem afterAll_takes (l : Link) (accepts : Event → Bool) (n : Nat) :
    l.afterAll (List.replicate n (.take accepts)) =
      { l with forwarder := l.forwarder.steps accepts l.channel n } := by
  induction n generalizing l with
  | zero => rfl
  | succ n ih => exact ih (l.after (.take accepts))

/-- Whatever is published and taken in any interleaving, and whatever the monitor makes of it. -/
theorem run_forwards (capacity : Nat) (moves : List Move) : Forwards capacity moves := by
  have hkeeps := keeps_run capacity moves
  have hdelivers := delivers_run capacity moves
  have hends : .stop ∉ moves → ∀ more, .stop ∉ more →
      (run capacity moves).channel.kept.length + 2 ≤ more.countP Move.isTake →
        (run capacity moves).HandsOverRest (((run capacity moves).after .close).afterAll more) := by
    intro hstop more hmore hmany
    have hwork := Forwarder.work_le hkeeps (run capacity moves).forwarder
    obtain ⟨hstopped, hsent⟩ := afterAll_closed (l := (run capacity moves).after .close)
      (keeps_after hkeeps .close) rfl (fun hs => (stopped_run hstop hs).2) hmore
      (Nat.le_trans hwork hmany)
    exact ⟨hstopped, hsent.trans (congrArg _ (hkeeps.due_eq _))⟩
  constructor
  case published => exact (published_afterAll (start capacity) moves).trans (by rfl)
  case keeps => exact hkeeps
  case room => exact room_run capacity moves
  case delivers => exact hdelivers
  case sublist =>
    obtain ⟨places, h⟩ := hdelivers
    exact h.sublist
  case stopped => exact stopped_run
  case ends =>
    intro hstop more hmore hmany
    have hrun : run capacity (moves ++ .close :: more) =
        ((run capacity moves).after .close).afterAll more := by
      simp [run, afterAll]
    rw [hrun]
    exact hends hstop more hmore hmany
  case loop =>
    intro hstop accepts
    have hrest := hends hstop
      (List.replicate ((run capacity moves).channel.kept.length + 2) (.take accepts))
      (fun hmem => by cases List.eq_of_mem_replicate hmem)
      (by simp [List.countP_replicate, Move.isTake])
    rwa [afterAll_takes] at hrest

/-- Room for four: of five events the first is overwritten, and a refused one is not sent again. -/
example (a b c d e : Event) :
    (run 3 [.publish a, .publish b, .publish c, .publish d, .publish e, .take fun _ => true,
      .take fun _ => false, .take fun _ => true]).forwarder.sent = [b, c] := by
  cbv

end Link

end BuildPool.Monitor
