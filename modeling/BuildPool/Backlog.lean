import BuildPool.Identifier

/-!
# The backlog

Builds that wait for a worker stand in a priority queue: the highest priority comes first, and among
equals the build submitted first. The queue is a heap whose left spines are the long ones, so that
two heaps are melded along their short right spines.
-/

namespace BuildPool

/-- A build in the queue, with what decides its place. -/
structure Entry where
  build : BuildId
  priority : Int32
  sequence : Nat
deriving DecidableEq, Repr

def Entry.before (a b : Entry) : Bool :=
  b.priority.toInt < a.priority.toInt ||
    (a.priority.toInt == b.priority.toInt && a.sequence < b.sequence)

namespace Entry

theorem before_iff (a b : Entry) :
    a.before b = true ↔ b.priority.toInt < a.priority.toInt ∨
      (a.priority.toInt = b.priority.toInt ∧ a.sequence < b.sequence) := by
  simp [before]

theorem before_irrefl (a : Entry) : a.before a = false := by
  simp [before]

theorem before_trans {a b c : Entry} (h₁ : a.before b = true) (h₂ : b.before c = true) :
    a.before c = true := by
  rw [before_iff] at *; omega

/-- Of two entries in order, a third stands behind the first or before the second. -/
theorem before_or_before {a b : Entry} (h : a.before b = true) (c : Entry) :
    a.before c = true ∨ c.before b = true := by
  rw [before_iff] at *; rw [before_iff]; omega

theorem not_before_trans {a b c : Entry} (h₁ : b.before a = false) (h₂ : c.before b = false) :
    c.before a = false := by
  rw [Bool.eq_false_iff, ne_eq, before_iff] at *; omega

theorem not_before_or (a b : Entry) : a.before b = false ∨ b.before a = false := by
  simp only [Bool.eq_false_iff, ne_eq, before_iff]; omega

/-- Only entries of one number stand side by side. -/
theorem before_of_sequence_ne {a b : Entry} (h : b.before a = false)
    (hne : a.sequence ≠ b.sequence) : a.before b = true := by
  rw [Bool.eq_false_iff, ne_eq, before_iff] at h; rw [before_iff]; omega

end Entry

/-! ## Heaps -/

/-- A heap; the rank of a node is the length of its right spine. -/
inductive Heap
  | empty
  | node (rank : Nat) (top : Entry) (left right : Heap)
deriving Repr

namespace Heap

def rank : Heap → Nat
  | empty => 0
  | node rank .. => rank

def size : Heap → Nat
  | empty => 0
  | node _ _ left right => left.size + right.size + 1

/-- The entries, in no particular order. -/
def toList : Heap → List Entry
  | empty => []
  | node _ top left right => top :: (left.toList ++ right.toList)

/-- A node with the heap of greater rank on the left. -/
def make (top : Entry) (a b : Heap) : Heap :=
  if b.rank ≤ a.rank then node (b.rank + 1) top a b else node (a.rank + 1) top b a

/-- Melds a node, with the way to meld its right branch at hand, into another heap. -/
def meld (top : Entry) (left right : Heap) (meldRight : Heap → Heap) : Heap → Heap
  | empty => make top left right
  | node rank top' left' right' =>
    if top'.before top then make top' left' (meld top left right meldRight right')
    else make top left (meldRight (node rank top' left' right'))

def merge : Heap → Heap → Heap
  | empty => id
  | node _ top left right => meld top left right right.merge

/-- No entry comes before the one on top, here and in both branches. -/
def Ordered : Heap → Prop
  | empty => True
  | node _ top left right =>
    (∀ e ∈ left.toList ++ right.toList, e.before top = false) ∧ left.Ordered ∧ right.Ordered

theorem perm_make (top : Entry) (a b : Heap) :
    (make top a b).toList.Perm (top :: (a.toList ++ b.toList)) := by
  unfold make
  split
  · exact .refl _
  · exact (List.perm_append_comm).cons top

theorem perm_meld {top : Entry} {left right : Heap} {meldRight : Heap → Heap}
    (hright : ∀ h, (meldRight h).toList.Perm (right.toList ++ h.toList)) (h : Heap) :
    (meld top left right meldRight h).toList.Perm
      ((top :: (left.toList ++ right.toList)) ++ h.toList) := by
  induction h with
  | empty => simpa [meld, toList] using perm_make top left right
  | node rank top' left' right' _ ih =>
    simp only [meld]
    split
    · refine (perm_make _ _ _).trans ?_
      refine ((ih.append_left left'.toList).cons top').trans ?_
      simp only [toList]
      exact ((List.perm_append_comm_assoc _ _ _).cons top').trans List.perm_middle.symm
    · refine (perm_make _ _ _).trans ?_
      refine List.Perm.cons top ?_
      refine ((hright _).append_left left.toList).trans ?_
      simp [toList]

theorem perm_merge (a b : Heap) : (a.merge b).toList.Perm (a.toList ++ b.toList) := by
  induction a generalizing b with
  | empty => exact .refl _
  | node _ top left right _ ih => exact perm_meld ih b

theorem ordered_make {top : Entry} {a b : Heap}
    (h : ∀ e ∈ a.toList ++ b.toList, e.before top = false) (ha : a.Ordered) (hb : b.Ordered) :
    (make top a b).Ordered := by
  unfold make
  split
  · exact ⟨h, ha, hb⟩
  · exact ⟨fun e he => h e ((List.perm_append_comm).mem_iff.1 he), hb, ha⟩

theorem ordered_meld {top : Entry} {left right : Heap} {meldRight : Heap → Heap}
    (hself : (node 0 top left right).Ordered)
    (hperm : ∀ h, (meldRight h).toList.Perm (right.toList ++ h.toList))
    (hright : ∀ h : Heap, h.Ordered → (meldRight h).Ordered) (h : Heap) (hord : h.Ordered) :
    (meld top left right meldRight h).Ordered := by
  obtain ⟨htop, hleft, _⟩ := hself
  induction h with
  | empty => exact ordered_make htop hleft ‹_›
  | node rank top' left' right' _ ih =>
    obtain ⟨htop', hleft', hright'⟩ := hord
    simp only [meld]
    split
    · next hbefore =>
      refine ordered_make (fun e he => ?_) hleft' (ih hright')
      rcases List.mem_append.1 he with he | he
      · exact htop' e (List.mem_append_left _ he)
      · rcases List.mem_append.1 ((perm_meld hperm right').mem_iff.1 he) with he | he
        · have : e.before top = false := by
            rcases List.mem_cons.1 he with rfl | he
            · exact Entry.before_irrefl _
            · exact htop e he
          cases hc : e.before top' with
          | false => rfl
          | true => simp_all [Entry.before_trans hc hbefore]
        · exact htop' e (List.mem_append_right _ he)
    · next hbefore =>
      have hnode : (node rank top' left' right').Ordered := ⟨htop', hleft', hright'⟩
      refine ordered_make (fun e he => ?_) hleft (hright _ hnode)
      rcases List.mem_append.1 he with he | he
      · exact htop e (List.mem_append_left _ he)
      · rcases List.mem_append.1 ((hperm _).mem_iff.1 he) with he | he
        · exact htop e (List.mem_append_right _ he)
        · rcases List.mem_cons.1 he with rfl | he
          · simpa using hbefore
          · cases hc : e.before top with
            | false => rfl
            | true =>
              rcases Entry.before_or_before hc top' with h' | h'
              · simp_all [htop' e he]
              · simp_all

theorem ordered_merge {a b : Heap} (ha : a.Ordered) (hb : b.Ordered) : (a.merge b).Ordered := by
  induction a generalizing b with
  | empty => exact hb
  | node _ top left right _ ih =>
    exact ordered_meld ha (perm_merge right) (fun h hh => ih ha.2.2 hh) b hb

theorem size_eq_length (h : Heap) : h.size = h.toList.length := by
  induction h with
  | empty => rfl
  | node _ _ left right hl hr => simp [size, toList, hl, hr]

end Heap

/-! ## The queue -/

structure Backlog where
  heap : Heap
  ordered : heap.Ordered

namespace Backlog

def empty : Backlog := ⟨.empty, trivial⟩

instance : Inhabited Backlog := ⟨empty⟩

def size (q : Backlog) : Nat := q.heap.size

def isEmpty (q : Backlog) : Bool := q.size == 0

/-- The entries, in no particular order. -/
def toList (q : Backlog) : List Entry := q.heap.toList

def push (q : Backlog) (e : Entry) : Backlog :=
  ⟨(Heap.node 1 e .empty .empty).merge q.heap,
    Heap.ordered_merge (by simp [Heap.Ordered, Heap.toList]) q.ordered⟩

def pop? : Backlog → Option (Entry × Backlog)
  | ⟨.empty, _⟩ => none
  | ⟨.node _ top left right, h⟩ => some (top, ⟨left.merge right, Heap.ordered_merge h.2.1 h.2.2⟩)

/-- What a search took off the queue: the entry it looked for, all entries it looked at in order,
and the queue without them. -/
structure Search where
  found : Option Entry
  seen : List Entry
  rest : Backlog

/-- Takes entries off until one is eligible; the others are dropped. -/
def searchFirst (eligible : Entry → Bool) : Nat → Backlog → Search
  | 0, q => ⟨none, [], q⟩
  | fuel + 1, q =>
    match q.pop? with
    | none => ⟨none, [], q⟩
    | some (e, q) =>
      if eligible e then ⟨some e, [e], q⟩
      else
        let found := searchFirst eligible fuel q
        { found with seen := e :: found.seen }

def popFirst (q : Backlog) (eligible : Entry → Bool) : Search := searchFirst eligible q.size q

def drainSteps : Nat → Backlog → List Entry
  | 0, _ => []
  | fuel + 1, q =>
    match q.pop? with
    | none => []
    | some (e, q) => e :: drainSteps fuel q

/-- All entries, in the order in which they come off. -/
def drain (q : Backlog) : List Entry := drainSteps q.size q

/-! ## The operations on the entries -/

@[simp] theorem toList_empty : empty.toList = [] := rfl

theorem perm_push (q : Backlog) (e : Entry) : (q.push e).toList.Perm (e :: q.toList) :=
  Heap.perm_merge _ _

theorem pop?_eq_none_iff (q : Backlog) : q.pop? = none ↔ q.toList = [] := by
  obtain ⟨h, _⟩ := q
  cases h <;> simp [pop?, toList, Heap.toList]

/-- What comes off was in the queue, and nothing that stays comes before it. -/
theorem pop?_eq_some {q q' : Backlog} {e : Entry} (h : q.pop? = some (e, q')) :
    q.toList.Perm (e :: q'.toList) ∧ ∀ x ∈ q'.toList, x.before e = false := by
  obtain ⟨heap, hord⟩ := q
  cases heap with
  | empty => simp [pop?] at h
  | node _ top left right =>
    simp only [pop?, Option.some.injEq, Prod.mk.injEq] at h
    obtain ⟨rfl, rfl⟩ := h
    have hperm := Heap.perm_merge left right
    exact ⟨hperm.symm.cons top, fun x hx => hord.1 x (hperm.mem_iff.1 hx)⟩

theorem size_eq_length (q : Backlog) : q.size = q.toList.length := Heap.size_eq_length _

end Backlog

end BuildPool
