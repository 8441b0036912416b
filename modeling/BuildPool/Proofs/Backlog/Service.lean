import Mathlib.Data.List.Sort
import Mathlib.Data.List.TakeWhile
import BuildPool.Proofs.Backlog.Drain

/-!
# The order of service

A backlog serves its entries as a plain list would that is kept in the order of service, whatever is
pushed, taken off and searched for, and however its heap came to look. This holds as long as no two
entries in it have one priority and one sequence number.
-/

namespace BuildPool

namespace Entry

variable {a b c : Entry}

def key (e : Entry) : Int32 × Nat := (e.priority, e.sequence)

/-- The first has the higher priority, or the same priority and the lower sequence number. -/
def Precedes (a b : Entry) : Prop :=
  b.priority < a.priority ∨ a.priority = b.priority ∧ a.sequence < b.sequence

instance (a b : Entry) : Decidable (a.Precedes b) := by unfold Precedes; infer_instance

theorem precedes_iff : a.Precedes b ↔ a.before b = true := by
  rw [Precedes, before_iff, Int32.lt_iff_toInt_lt, Int32.toInt_inj]

theorem Precedes.trans (hab : a.Precedes b) (hbc : b.Precedes c) : a.Precedes c := by
  rw [precedes_iff] at *
  exact before_trans hab hbc

theorem precedes_of_not_before (h : b.before a = false) (hkey : a.key ≠ b.key) : a.Precedes b := by
  have hne : ¬ (a.priority = b.priority ∧ a.sequence = b.sequence) := by
    simpa [key] using hkey
  rw [← Int32.toInt_inj] at hne
  rw [Bool.eq_false_iff, ne_eq, before_iff] at h
  rw [precedes_iff, before_iff]
  omega

theorem key_eq_of_not_before (hab : a.before b = false) (hba : b.before a = false) :
    a.key = b.key := by
  by_contra hne
  have hbefore := precedes_iff.1 (precedes_of_not_before hba hne)
  rw [hab] at hbefore
  cases hbefore

end Entry

namespace Backlog

variable {q q' : Backlog} {e : Entry}

/-! ## Requests -/

inductive Op
  | push (e : Entry)
  | pop
  | search (eligible : Entry → Bool)

inductive Reply
  | pushed
  | popped (e : Option Entry)
  /-- What was found, and all entries that the condition was tried on, in this order. -/
  | searched (found : Option Entry) (seen : List Entry)
deriving DecidableEq

def Op.added : Op → List Entry
  | .push e => [e]
  | .pop | .search _ => []

def Reply.removed : Reply → List Entry
  | .pushed => []
  | .popped e => e.toList
  | .searched _ seen => seen

def serve (q : Backlog) : Op → Reply × Backlog
  | .push e => (.pushed, q.push e)
  | .pop =>
    match q.pop? with
    | none => (.popped none, q)
    | some (e, rest) => (.popped (some e), rest)
  | .search eligible =>
    let search := q.popFirst eligible
    (.searched search.found search.seen, search.rest)

/-- The same requests to a list in the order of service: a new entry gets its place in it, and all
others are taken from its front. -/
def serveList (es : List Entry) : Op → Reply × List Entry
  | .push e => (.pushed, es.orderedInsert Entry.Precedes e)
  | .pop => (.popped es.head?, es.tail)
  | .search eligible =>
    (.searched (es.find? eligible)
      ((es.takeWhile fun e => !eligible e) ++ (es.find? eligible).toList),
      (es.dropWhile fun e => !eligible e).tail)

/-- All requests one after the other: the replies, and what there is at the end. -/
def serveAll {α : Type} (serve : α → Op → Reply × α) : α → List Op → List Reply × α
  | a, [] => ([], a)
  | a, op :: ops =>
    let (reply, a) := serve a op
    let (replies, a) := serveAll serve a ops
    (reply :: replies, a)

/-- No two entries have one priority and one sequence number. -/
def Distinct (es : List Entry) : Prop := (es.map Entry.key).Nodup

/-- An entry that is pushed differs in its key from those in the backlog. -/
def Admits (q : Backlog) : Op → Prop
  | .push e => e.key ∉ q.toList.map Entry.key
  | .pop | .search _ => True

def AdmitsAll (q : Backlog) : List Op → Prop
  | [] => True
  | op :: ops => q.Admits op ∧ (q.serve op).2.AdmitsAll ops

instance (q : Backlog) : (op : Op) → Decidable (q.Admits op)
  | .push e => inferInstanceAs (Decidable (e.key ∉ q.toList.map Entry.key))
  | .pop => .isTrue trivial
  | .search _ => .isTrue trivial

instance decidableAdmitsAll : (q : Backlog) → (ops : List Op) → Decidable (q.AdmitsAll ops)
  | _, [] => .isTrue trivial
  | q, op :: ops =>
    let _ := decidableAdmitsAll (q.serve op).2 ops
    inferInstanceAs (Decidable (q.Admits op ∧ (q.serve op).2.AdmitsAll ops))

/-! ## Only the entries count -/

theorem Distinct.perm {es fs : List Entry} (h : Distinct es) (hperm : es.Perm fs) : Distinct fs :=
  (hperm.map Entry.key).nodup_iff.1 h

theorem Distinct.sublist {es fs : List Entry} (h : Distinct es) (hsub : fs.Sublist es) :
    Distinct fs :=
  List.Nodup.sublist (hsub.map Entry.key) h

theorem Distinct.eq_of_key_eq {es : List Entry} (h : Distinct es) :
    ∀ a ∈ es, ∀ b ∈ es, a.key = b.key → a = b :=
  fun _ ha _ hb => List.inj_on_of_nodup_map h ha hb

theorem distinct_cons {es : List Entry} :
    Distinct (e :: es) ↔ e.key ∉ es.map Entry.key ∧ Distinct es := List.nodup_cons

theorem drain_sorted (h : Distinct q.toList) : q.drain.Pairwise Entry.Precedes := by
  have hkeys := List.pairwise_map.1 (h.perm (perm_drain q).symm)
  refine ((drain_ordered q).and hkeys).imp ?_
  rintro a b ⟨hle, hne⟩
  exact Entry.precedes_of_not_before hle hne

/-- A list of the entries in the order of service is the order in which they come off. -/
theorem drain_eq_of_sorted {es : List Entry} (hperm : es.Perm q.toList)
    (hsorted : es.Pairwise Entry.Precedes) : q.drain = es := by
  refine eq_of_perm_of_ordered ((perm_drain q).trans hperm.symm) (drain_ordered q) ?_
  exact hsorted.imp Entry.precedes_iff.1

/-- Backlogs with the same entries give them out in the same order. -/
theorem drain_eq_of_perm (h : ∀ a ∈ q.toList, ∀ b ∈ q.toList, a.key = b.key → a = b)
    (hperm : q.toList.Perm q'.toList) : q'.drain = q.drain := by
  have hdrained : q'.drain.Perm q.drain :=
    (perm_drain q').trans (hperm.symm.trans (perm_drain q).symm)
  refine hdrained.eq_of_pairwise (fun a b ha hb hba hab => ?_) (drain_ordered q') (drain_ordered q)
  have ha : a ∈ q.toList := (hdrained.trans (perm_drain q)).mem_iff.1 ha
  exact h a ha b ((perm_drain q).mem_iff.1 hb) (Entry.key_eq_of_not_before hab hba)

theorem sorted_orderedInsert {es : List Entry} (hsorted : es.Pairwise Entry.Precedes)
    (hnew : e.key ∉ es.map Entry.key) : (es.orderedInsert Entry.Precedes e).Pairwise
      Entry.Precedes := by
  induction es with
  | nil => simp
  | cons x rest ih =>
    obtain ⟨hx, hrest⟩ := List.pairwise_cons.1 hsorted
    simp only [List.map_cons, List.mem_cons, not_or] at hnew
    rw [List.orderedInsert_cons]
    split
    · next hex =>
      refine List.pairwise_cons.2 ⟨List.forall_mem_cons.2 ⟨hex, fun y hy => ?_⟩, hsorted⟩
      exact hex.trans (hx y hy)
    · next hex =>
      refine List.pairwise_cons.2 ⟨fun y hy => ?_, ih hrest hnew.2⟩
      rcases (List.mem_orderedInsert _).1 hy with rfl | hy
      · rw [Entry.precedes_iff, Bool.not_eq_true] at hex
        exact Entry.precedes_of_not_before hex (Ne.symm hnew.1)
      · exact hx y hy

theorem drain_push (h : Distinct q.toList) (hnew : e.key ∉ q.toList.map Entry.key) :
    (q.push e).drain = q.drain.orderedInsert Entry.Precedes e := by
  have hdrain := perm_drain q
  apply drain_eq_of_sorted
  · refine (List.perm_orderedInsert _ e _).trans ((hdrain.cons e).trans ?_)
    exact (perm_push q e).symm
  · refine sorted_orderedInsert (drain_sorted h) ?_
    rwa [(hdrain.map Entry.key).mem_iff]

/-! ## Searches -/

theorem seen_searchFirst {eligible : Entry → Bool} {fuel : Nat} (h : q.size ≤ fuel) :
    (searchFirst eligible fuel q).seen =
      (q.drain.takeWhile fun e => !eligible e) ++ (q.drain.find? eligible).toList := by
  induction fuel generalizing q with
  | zero =>
    have hq : q.pop? = none := by
      cases hp : q.pop? with
      | none => rfl
      | some p => have := size_of_pop? hp; omega
    simp [searchFirst, drain_of_pop?_none hq]
  | succ fuel ih =>
    cases hp : q.pop? with
    | none => simp [searchFirst, hp, drain_of_pop?_none hp]
    | some p =>
      obtain ⟨e, rest⟩ := p
      have hsize := size_of_pop? hp
      have hrest := @ih rest (by omega)
      rw [drain_of_pop? hp]
      cases he : eligible e <;> simp [searchFirst, hp, he, hrest]

/-- What a search looks at, and then what it leaves, is all there was, in the order of service. -/
theorem seen_append_rest (eligible : Entry → Bool) (q : Backlog) :
    (q.popFirst eligible).seen ++ (q.popFirst eligible).rest.drain = q.drain := by
  rw [popFirst, seen_searchFirst (Nat.le_refl _), ← popFirst, drain_rest_popFirst]
  induction q.drain with
  | nil => rfl
  | cons e rest ih => cases he : eligible e <;> simp_all

theorem perm_seen_rest (eligible : Entry → Bool) (q : Backlog) :
    ((q.popFirst eligible).seen ++ (q.popFirst eligible).rest.toList).Perm q.toList := by
  refine ((perm_drain _).symm.append_left _).trans ?_
  rw [seen_append_rest]
  exact perm_drain q

/-- What a search for an eligible entry comes to. -/
structure FindsFirst (q : Backlog) (eligible : Entry → Bool) (s : Search) : Prop where
  /-- The entries it tried are the first in the order of service; all others stay. -/
  tried : s.seen ++ s.rest.drain = q.drain
  kept : (s.seen ++ s.rest.toList).Perm q.toList
  found : ∀ e, s.found = some e → eligible e = true ∧
    ∃ dead, s.seen = dead ++ [e] ∧ ∀ x ∈ dead, eligible x = false
  nothing : s.found = none → s.rest.toList = [] ∧ ∀ x ∈ q.toList, eligible x = false

theorem popFirst_findsFirst (q : Backlog) (eligible : Entry → Bool) :
    FindsFirst q eligible (q.popFirst eligible) := by
  have hseen : (q.popFirst eligible).seen =
      (q.drain.takeWhile fun e => !eligible e) ++ (q.popFirst eligible).found.toList := by
    rw [found_popFirst]
    exact seen_searchFirst (Nat.le_refl _)
  have hdead : ∀ x ∈ q.drain.takeWhile fun e => !eligible e, eligible x = false := by
    intro x hx
    simpa using List.mem_takeWhile_imp hx
  constructor
  case tried => exact seen_append_rest eligible q
  case kept => exact perm_seen_rest eligible q
  case found =>
    intro e he
    have hfind := found_popFirst q eligible
    rw [he] at hfind hseen
    exact ⟨List.find?_some hfind.symm, _, hseen, hdead⟩
  case nothing =>
    intro hnone
    have hfind := found_popFirst q eligible
    rw [hnone, eq_comm, List.find?_eq_none] at hfind
    have hall : ∀ x ∈ q.drain, eligible x = false := by simpa using hfind
    have hrest : (q.popFirst eligible).rest.drain = [] := by
      rw [drain_rest_popFirst, List.dropWhile_eq_nil_iff.2 (by simpa using hall), List.tail_nil]
    refine ⟨(hrest ▸ perm_drain (q.popFirst eligible).rest).nil_eq.symm, fun x hx => ?_⟩
    exact hall x ((perm_drain q).mem_iff.2 hx)

/-! ## One request -/

theorem perm_serve (q : Backlog) (op : Op) :
    ((q.serve op).2.toList ++ (q.serve op).1.removed).Perm (op.added ++ q.toList) := by
  cases op with
  | push e => simpa [serve, Reply.removed, Op.added] using perm_push q e
  | pop =>
    simp only [serve, Op.added, List.nil_append]
    cases hp : q.pop? with
    | none => simp [Reply.removed]
    | some p =>
      refine List.perm_append_comm.trans ?_
      simpa [Reply.removed] using (pop?_eq_some hp).1.symm
  | search eligible => exact List.perm_append_comm.trans (perm_seen_rest eligible q)

theorem distinct_serve {op : Op} (h : Distinct q.toList) (hadmits : q.Admits op) :
    Distinct (q.serve op).2.toList := by
  have hadded : Distinct (op.added ++ q.toList) := by
    cases op with
    | push e => exact distinct_cons.2 ⟨hadmits, h⟩
    | pop => exact h
    | search _ => exact h
  exact (hadded.perm (perm_serve q op).symm).sublist (List.sublist_append_left _ _)

theorem serve_eq_serveList {op : Op} (h : Distinct q.toList) (hadmits : q.Admits op) :
    serveList q.drain op = ((q.serve op).1, (q.serve op).2.drain) := by
  cases op with
  | push e => simp only [serve, serveList, drain_push h hadmits]
  | pop =>
    simp only [serve, serveList]
    cases hp : q.pop? with
    | none => simp [drain_of_pop?_none hp]
    | some p => simp [drain_of_pop? hp]
  | search eligible =>
    simp only [serve, serveList, found_popFirst, drain_rest_popFirst]
    rw [popFirst, seen_searchFirst (Nat.le_refl _)]

/-! ## Any requests -/

theorem perm_serveAll (q : Backlog) (ops : List Op) :
    ((serveAll serve q ops).2.toList ++ (serveAll serve q ops).1.flatMap Reply.removed).Perm
      (ops.flatMap Op.added ++ q.toList) := by
  induction ops generalizing q with
  | nil => simp [serveAll]
  | cons op rest ih =>
    simp only [serveAll, List.flatMap_cons]
    -- What the first request takes off is set aside on both sides.
    refine List.perm_append_comm_assoc _ _ _ |>.trans ?_
    refine ((ih (q.serve op).2).append_left _).trans ?_
    refine (List.perm_append_comm_assoc _ _ _).trans ?_
    refine ((List.perm_append_comm.trans (perm_serve q op)).append_left _).trans ?_
    rw [List.append_assoc]
    exact List.perm_append_comm_assoc _ _ _

theorem distinct_serveAll {ops : List Op} (h : Distinct q.toList) (hadmits : q.AdmitsAll ops) :
    Distinct (serveAll serve q ops).2.toList := by
  induction ops generalizing q with
  | nil => exact h
  | cons op rest ih => exact ih (distinct_serve h hadmits.1) hadmits.2

theorem serveAll_eq_serveList {ops : List Op} (h : Distinct q.toList)
    (hadmits : q.AdmitsAll ops) : serveAll serveList q.drain ops =
      ((serveAll serve q ops).1, (serveAll serve q ops).2.drain) := by
  induction ops generalizing q with
  | nil => rfl
  | cons op rest ih =>
    have hrest := ih (distinct_serve h hadmits.1) hadmits.2
    simp only [serveAll, serve_eq_serveList h hadmits.1, hrest]

theorem perm_foldl_push (more : List Entry) (q : Backlog) :
    (more.foldl push q).toList.Perm (more ++ q.toList) := by
  induction more generalizing q with
  | nil => exact .refl _
  | cons e rest ih =>
    refine (ih (q.push e)).trans ?_
    exact ((perm_push q e).append_left rest).trans List.perm_middle

/-- An entry that is taken off and comes back later finds its place again. -/
theorem drain_push_back {more : List Entry} (hpop : q.pop? = some (e, q'))
    (h : Distinct (more ++ q.toList)) :
    ((more.foldl push q').push e).drain = (more.foldl push q).drain := by
  have hstayed := perm_foldl_push more q
  apply drain_eq_of_perm (h.perm hstayed.symm).eq_of_key_eq
  refine hstayed.trans ?_
  refine ((pop?_eq_some hpop).1.append_left more).trans (List.perm_middle.trans ?_)
  exact ((perm_foldl_push more q').symm.cons e).trans (perm_push _ e).symm

/-- After these requests to an empty backlog, with these replies, the backlog is what it should
be. -/
structure InOrder (ops : List Op) (replies : List Reply) (q : Backlog) : Prop where
  /-- What it holds and what it gave away is what was pushed. -/
  balance : (q.toList ++ replies.flatMap Reply.removed).Perm (ops.flatMap Op.added)
  /-- It gave the replies of a list in the order of service, and what is left is that list. -/
  listed : serveAll serveList [] ops = (replies, q.drain)
  sorted : q.drain.Pairwise Entry.Precedes ∧ q.drain.Perm q.toList
  exhausted : q.pop? = none ↔ q.toList = []
  first : ∀ e q', q.pop? = some (e, q') →
    q.toList.Perm (e :: q'.toList) ∧ (∀ x ∈ q'.toList, e.Precedes x) ∧ q.drain = e :: q'.drain
  search : ∀ eligible, FindsFirst q eligible (q.popFirst eligible)
  pushedBack : ∀ e q' more, q.pop? = some (e, q') → Distinct (more ++ q.toList) →
    ((more.foldl push q').push e).drain = (more.foldl push q).drain

theorem serveAll_inOrder {ops : List Op} (h : empty.AdmitsAll ops) :
    InOrder ops (serveAll serve empty ops).1 (serveAll serve empty ops).2 := by
  have hempty : Distinct empty.toList := List.nodup_nil
  have hdistinct := distinct_serveAll hempty h
  have hsorted := drain_sorted hdistinct
  constructor
  case balance => simpa using perm_serveAll empty ops
  case listed => exact serveAll_eq_serveList hempty h
  case sorted => exact ⟨hsorted, perm_drain _⟩
  case exhausted => exact pop?_eq_none_iff _
  case first =>
    intro e q' hpop
    have hdrain := drain_of_pop? hpop
    rw [hdrain] at hsorted
    refine ⟨(pop?_eq_some hpop).1, fun x hx => ?_, hdrain⟩
    exact (List.pairwise_cons.1 hsorted).1 x ((perm_drain q').mem_iff.2 hx)
  case search => exact popFirst_findsFirst _
  case pushedBack => exact fun e q' more => drain_push_back

/-- Three entries, of which the last comes first; it is put back later, and one is found that is not
the first. -/
def threeEntries : List Op :=
  [.push ⟨⟨"a"⟩, 0, 1⟩, .push ⟨⟨"b"⟩, -3, 2⟩, .push ⟨⟨"c"⟩, 5, 3⟩, .pop, .push ⟨⟨"d"⟩, 0, 4⟩,
    .push ⟨⟨"c"⟩, 5, 3⟩, .search fun e => e.build == ⟨"d"⟩, .pop]

theorem serveAll_inOrder_threeEntries :
    empty.AdmitsAll threeEntries ∧
      (serveAll serve empty threeEntries).1.flatMap Reply.removed =
        [⟨⟨"c"⟩, 5, 3⟩, ⟨⟨"c"⟩, 5, 3⟩, ⟨⟨"a"⟩, 0, 1⟩, ⟨⟨"d"⟩, 0, 4⟩, ⟨⟨"b"⟩, -3, 2⟩] ∧
      InOrder threeEntries (serveAll serve empty threeEntries).1
        (serveAll serve empty threeEntries).2 :=
  have hadmits : empty.AdmitsAll threeEntries := by decide
  ⟨hadmits, by decide, serveAll_inOrder hadmits⟩

end Backlog

end BuildPool
