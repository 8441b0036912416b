import BuildPool.Backlog

/-!
# The order in which entries come off

A backlog is seen as the list of its entries in the order in which they come off. Taking one off is
taking the head of this list, and a search drops what stands in front of the entry that it finds.
Entries of which one is always before the other have only one such order.
-/

namespace BuildPool

namespace Backlog

/-! ## One entry at a time -/

theorem size_of_pop? {q q' : Backlog} {e : Entry} (h : q.pop? = some (e, q')) :
    q.size = q'.size + 1 := by
  rw [size_eq_length, size_eq_length, (pop?_eq_some h).1.length_eq, List.length_cons]

theorem size_of_pop?_none {q : Backlog} (h : q.pop? = none) : q.size = 0 := by
  rw [size_eq_length, (pop?_eq_none_iff q).1 h, List.length_nil]

/-- What holds of a backlog that gives nothing, and of any backlog if it holds after one entry is
taken off, holds of all. -/
theorem pop_induction {P : Backlog → Prop} (hnone : ∀ q, q.pop? = none → P q)
    (hsome : ∀ q e q', q.pop? = some (e, q') → P q' → P q) (q : Backlog) : P q := by
  generalize hn : q.size = n
  induction n generalizing q with
  | zero =>
    cases h : q.pop? with
    | none => exact hnone q h
    | some p => have := size_of_pop? h; omega
  | succ n ih =>
    cases h : q.pop? with
    | none => exact hnone q h
    | some p =>
      have := size_of_pop? h
      exact hsome q p.1 p.2 h (ih p.2 (by omega))

theorem drain_of_pop?_none {q : Backlog} (h : q.pop? = none) : q.drain = [] := by
  rw [drain, size_of_pop?_none h, drainSteps]

theorem drain_of_pop? {q q' : Backlog} {e : Entry} (h : q.pop? = some (e, q')) :
    q.drain = e :: q'.drain := by
  rw [drain, size_of_pop? h]
  simp only [drainSteps, h]
  rfl

/-! ## The whole order -/

theorem perm_drain (q : Backlog) : q.drain.Perm q.toList := by
  induction q using pop_induction with
  | hnone q h => rw [drain_of_pop?_none h, (pop?_eq_none_iff q).1 h]
  | hsome q e q' h ih =>
    rw [drain_of_pop? h]
    exact (ih.cons e).trans (pop?_eq_some h).1.symm

/-- No entry comes off after one that it stands before. -/
theorem drain_ordered (q : Backlog) : q.drain.Pairwise fun a b => b.before a = false := by
  induction q using pop_induction with
  | hnone q h => rw [drain_of_pop?_none h]; exact .nil
  | hsome q e q' h ih =>
    rw [drain_of_pop? h]
    refine List.pairwise_cons.2 ⟨fun x hx => ?_, ih⟩
    exact (pop?_eq_some h).2 x ((perm_drain q').mem_iff.1 hx)

/-- Entries of which one is always before the other have only one order. -/
theorem eq_of_perm_of_ordered {es l : List Entry} (hperm : es.Perm l)
    (hes : es.Pairwise fun a b => b.before a = false)
    (hl : l.Pairwise fun a b => a.before b = true) : es = l := by
  have hweak : l.Pairwise fun a b => b.before a = false := by
    refine hl.imp fun {a b} hab => ?_
    cases hba : b.before a with
    | false => rfl
    | true => rw [← Entry.before_irrefl a, Entry.before_trans hab hba]
  have htotal : ∀ x ∈ l, ∀ y ∈ l, x = y ∨ x.before y = true ∨ y.before x = true := by
    intro x hx y hy
    obtain ⟨i, hi, rfl⟩ := List.getElem_of_mem hx
    obtain ⟨j, hj, rfl⟩ := List.getElem_of_mem hy
    have hlt := List.pairwise_iff_getElem.1 hl
    rcases Nat.lt_trichotomy i j with hij | rfl | hij
    · exact .inr (.inl (hlt i j hi hj hij))
    · exact .inl rfl
    · exact .inr (.inr (hlt j i hj hi hij))
  refine hperm.eq_of_pairwise ?_ hes hweak
  intro a b ha hb hba hab
  rcases htotal a (hperm.mem_iff.1 ha) b hb with h | h | h
  · exact h
  · rw [h] at hab; cases hab
  · rw [h] at hba; cases hba

/-! ## Searches -/

theorem searchFirst_spec {eligible : Entry → Bool} {fuel : Nat} {q : Backlog} (h : q.size ≤ fuel) :
    (searchFirst eligible fuel q).found = q.drain.find? eligible ∧
      (searchFirst eligible fuel q).rest.drain =
        (q.drain.dropWhile fun e => !eligible e).tail := by
  induction fuel generalizing q with
  | zero =>
    have hq : q.pop? = none := by
      cases hp : q.pop? with
      | none => rfl
      | some p => have := size_of_pop? hp; omega
    simp [searchFirst, drain_of_pop?_none hq]
  | succ fuel ih =>
    cases hp : q.pop? with
    | none => simp [searchFirst, hp, drain_of_pop?_none hp]
    | some p =>
      obtain ⟨e, rest⟩ := p
      have hsize := size_of_pop? hp
      rw [drain_of_pop? hp]
      simp only [searchFirst, hp]
      cases he : eligible e with
      | true => simp [he]
      | false =>
        obtain ⟨hfound, hrest⟩ := @ih rest (by omega)
        simp [he, hfound, hrest]

/-- A search finds the first entry that is eligible. -/
theorem found_popFirst (q : Backlog) (eligible : Entry → Bool) :
    (q.popFirst eligible).found = q.drain.find? eligible :=
  (searchFirst_spec (Nat.le_refl _)).1

/-- A search leaves what stands behind the entry that it finds. -/
theorem drain_rest_popFirst (q : Backlog) (eligible : Entry → Bool) :
    (q.popFirst eligible).rest.drain = (q.drain.dropWhile fun e => !eligible e).tail :=
  (searchFirst_spec (Nat.le_refl _)).2

theorem find?_split (eligible : Entry → Bool) (es : List Entry) :
    ∃ dead, es = dead ++ ((es.find? eligible).toList ++
      (es.dropWhile fun e => !eligible e).tail) ∧ ∀ e ∈ dead, eligible e = false := by
  induction es with
  | nil => exact ⟨[], rfl, fun e he => by cases he⟩
  | cons e rest ih =>
    cases he : eligible e with
    | true => exact ⟨[], by simp [he], fun x hx => by cases hx⟩
    | false =>
      obtain ⟨dead, heq, hdead⟩ := ih
      refine ⟨e :: dead, ?_, ?_⟩
      · simp only [List.find?_cons, he, List.dropWhile_cons, Bool.not_false, if_true,
          List.cons_append]
        rw [← heq]
      · intro x hx
        rcases List.mem_cons.1 hx with rfl | hx
        · exact he
        · exact hdead x hx

/-- A search takes off what it finds, and else only entries that are not eligible. -/
theorem perm_popFirst (q : Backlog) (eligible : Entry → Bool) :
    ∃ dead, q.toList.Perm (dead ++ ((q.popFirst eligible).found.toList ++
      (q.popFirst eligible).rest.toList)) ∧ ∀ e ∈ dead, eligible e = false := by
  obtain ⟨dead, heq, hdead⟩ := find?_split eligible q.drain
  refine ⟨dead, ?_, hdead⟩
  rw [← found_popFirst, ← drain_rest_popFirst] at heq
  refine (perm_drain q).symm.trans ?_
  rw [heq]
  exact ((perm_drain _).append_left _).append_left _

end Backlog

end BuildPool
