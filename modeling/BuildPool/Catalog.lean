/-!
# Catalogs

A catalog holds at most one item for each key and lists its items in key order. Keys are texts, in
order of their code points, which is also the order of their UTF-8 bytes. Since the listing is in
strict key order, two catalogs with the same items are equal.
-/

namespace BuildPool

/-- Items in strict order of their keys. -/
structure Catalog (α : Type) (key : α → String) where
  items : List α
  ordered : items.Pairwise (fun a b => key a < key b)

namespace Catalog

variable {α : Type} {key : α → String}

instance [DecidableEq α] : DecidableEq (Catalog α key) := fun a b =>
  decidable_of_iff (a.items = b.items) (by cases a; cases b; simp)

instance [Repr α] : Repr (Catalog α key) := ⟨fun c n => reprPrec c.items n⟩

theorem ext {a b : Catalog α key} (h : a.items = b.items) : a = b := by
  cases a; cases b; simp_all

def empty : Catalog α key := ⟨[], .nil⟩

instance : Inhabited (Catalog α key) := ⟨empty⟩

instance : EmptyCollection (Catalog α key) := ⟨empty⟩

def toList (c : Catalog α key) : List α := c.items

instance : Membership α (Catalog α key) := ⟨fun c a => a ∈ c.items⟩

def size (c : Catalog α key) : Nat := c.items.length

def isEmpty (c : Catalog α key) : Bool := c.items.isEmpty

def find? (c : Catalog α key) (k : String) : Option α := c.items.find? (key · == k)

def contains (c : Catalog α key) (k : String) : Bool := (c.find? k).isSome

/-! ## Insertion -/

/-- Puts an item at its place in an ordered list, over an item with the same key. -/
def place (key : α → String) (a : α) : List α → List α
  | [] => [a]
  | b :: rest =>
    if key a < key b then a :: b :: rest
    else if key b < key a then b :: place key a rest
    else a :: rest

theorem mem_place {a x : α} {l : List α} (h : x ∈ place key a l) : x = a ∨ x ∈ l := by
  induction l with
  | nil => simpa [place] using h
  | cons b rest ih =>
    simp only [place] at h
    split at h
    · simpa using h
    · split at h
      · rcases List.mem_cons.1 h with h | h
        · exact .inr (by simp [h])
        · exact (ih h).imp_right (List.mem_cons_of_mem _)
      · rcases List.mem_cons.1 h with h | h
        · exact .inl h
        · exact .inr (List.mem_cons_of_mem _ h)

theorem key_eq_of_not_lt {a b : α} (h₁ : ¬ key a < key b) (h₂ : ¬ key b < key a) :
    key a = key b :=
  String.le_antisymm (String.not_lt.1 h₂) (String.not_lt.1 h₁)

theorem pairwise_place {a : α} {l : List α} (h : l.Pairwise (fun x y => key x < key y)) :
    (place key a l).Pairwise (fun x y => key x < key y) := by
  induction l with
  | nil => simp [place]
  | cons b rest ih =>
    obtain ⟨hb, hrest⟩ := List.pairwise_cons.1 h
    simp only [place]
    split
    · next hab =>
      refine List.pairwise_cons.2 ⟨fun x hx => ?_, h⟩
      rcases List.mem_cons.1 hx with rfl | hx
      · exact hab
      · exact String.lt_trans hab (hb x hx)
    · next hab =>
      split
      · next hba =>
        refine List.pairwise_cons.2 ⟨fun x hx => ?_, ih hrest⟩
        rcases mem_place hx with rfl | hx
        · exact hba
        · exact hb x hx
      · next hba =>
        have heq := key_eq_of_not_lt hab hba
        exact List.pairwise_cons.2 ⟨fun x hx => heq ▸ hb x hx, hrest⟩

/-- Adds an item, over an item with the same key. -/
def insert (c : Catalog α key) (a : α) : Catalog α key :=
  ⟨place key a c.items, pairwise_place c.ordered⟩

/-- Adds the items one by one; of two with the same key the later stays. -/
def ofList (l : List α) : Catalog α key := l.foldl insert empty

/-! ## Removal -/

def erase (c : Catalog α key) (k : String) : Catalog α key :=
  ⟨c.items.filter (key · != k), c.ordered.filter _⟩

/-! ## Look-up after a change -/

theorem find?_place_self (a : α) (l : List α) :
    (place key a l).find? (key · == key a) = some a := by
  induction l with
  | nil => simp [place]
  | cons b rest ih =>
    simp only [place]
    split
    · simp
    · split
      · next hba =>
        have hne : key b ≠ key a := fun h => String.lt_irrefl _ (h ▸ hba)
        simp [hne, ih]
      · simp

theorem find?_place_of_ne {a : α} {k : String} (hk : k ≠ key a) (l : List α) :
    (place key a l).find? (key · == k) = l.find? (key · == k) := by
  induction l with
  | nil => simp [place, Ne.symm hk]
  | cons b rest ih =>
    simp only [place]
    split
    · simp [Ne.symm hk]
    · next hab =>
      split
      · simp [List.find?_cons, ih]
      · next hba =>
        have heq := key_eq_of_not_lt hab hba
        simp [← heq, Ne.symm hk]

@[simp] theorem find?_empty (k : String) : (empty : Catalog α key).find? k = none := rfl

@[simp] theorem find?_insert_self (c : Catalog α key) (a : α) :
    (c.insert a).find? (key a) = some a :=
  find?_place_self a c.items

theorem find?_insert_of_ne (c : Catalog α key) (a : α) {k : String} (h : k ≠ key a) :
    (c.insert a).find? k = c.find? k :=
  find?_place_of_ne h c.items

theorem find?_insert (c : Catalog α key) (a : α) (k : String) :
    (c.insert a).find? k = if k = key a then some a else c.find? k := by
  split
  · next h => subst h; exact find?_insert_self c a
  · next h => exact find?_insert_of_ne c a h

theorem find?_erase (c : Catalog α key) (k k' : String) :
    (c.erase k).find? k' = if k' = k then none else c.find? k' := by
  simp only [erase, find?, List.find?_filter]
  split
  · next h =>
    subst h
    exact List.find?_eq_none.2 (by simp)
  · next h =>
    congr 1
    funext a
    by_cases ha : key a = k'
    · simp [ha, h]
    · simp [ha]

theorem key_of_find? {c : Catalog α key} {k : String} {a : α} (h : c.find? k = some a) :
    key a = k := by
  simpa using List.find?_some h

theorem mem_of_find? {c : Catalog α key} {k : String} {a : α} (h : c.find? k = some a) :
    a ∈ c.items :=
  List.mem_of_find?_eq_some h

/-! ## Membership -/

theorem mem_def {c : Catalog α key} {a : α} : a ∈ c ↔ a ∈ c.items := Iff.rfl

theorem mem_toList {c : Catalog α key} {a : α} : a ∈ c.toList ↔ a ∈ c := Iff.rfl

/-- A catalog has one item for a key. -/
theorem eq_of_key_eq {c : Catalog α key} {a b : α} (ha : a ∈ c) (hb : b ∈ c)
    (h : key a = key b) : a = b := by
  obtain ⟨i, hi, rfl⟩ := List.getElem_of_mem ha
  obtain ⟨j, hj, rfl⟩ := List.getElem_of_mem hb
  have hlt := List.pairwise_iff_getElem.1 c.ordered
  rcases Nat.lt_trichotomy i j with hij | rfl | hij
  · exact absurd (hlt i j hi hj hij) (h ▸ String.lt_irrefl _)
  · rfl
  · exact absurd (hlt j i hj hi hij) (h ▸ String.lt_irrefl _)

theorem find?_eq_some_iff {c : Catalog α key} {k : String} {a : α} :
    c.find? k = some a ↔ a ∈ c ∧ key a = k := by
  refine ⟨fun h => ⟨mem_of_find? h, key_of_find? h⟩, ?_⟩
  rintro ⟨ha, rfl⟩
  cases hf : c.find? (key a) with
  | none => simpa using List.find?_eq_none.1 hf a ha
  | some b => rw [eq_of_key_eq (mem_of_find? hf) ha (key_of_find? hf)]

theorem mem_iff_find? {c : Catalog α key} {a : α} : a ∈ c ↔ c.find? (key a) = some a := by
  rw [find?_eq_some_iff]; simp

theorem mem_insert_iff {c : Catalog α key} {a x : α} :
    x ∈ c.insert a ↔ x = a ∨ (x ∈ c ∧ key x ≠ key a) := by
  rw [mem_iff_find?, find?_insert, mem_iff_find?]
  by_cases h : key x = key a
  · rw [if_pos h]
    simp [h, eq_comm]
  · rw [if_neg h]
    have : x ≠ a := fun hx => h (by rw [hx])
    simp [h, this]

theorem mem_erase_iff {c : Catalog α key} {k : String} {x : α} :
    x ∈ c.erase k ↔ x ∈ c ∧ key x ≠ k := by
  rw [mem_def, mem_def]
  simp [erase]

@[simp] theorem not_mem_empty (x : α) : x ∉ (empty : Catalog α key) := by
  rw [mem_def]
  simp [empty]

theorem size_insert_le (c : Catalog α key) (a : α) : (c.insert a).size ≤ c.size + 1 := by
  obtain ⟨l, _⟩ := c
  change (place key a l).length ≤ l.length + 1
  induction l with
  | nil => simp [place]
  | cons b rest ih =>
    simp only [place]
    split
    · simp
    · split
      · have := ih (List.pairwise_cons.1 ‹_›).2
        simp only [List.length_cons]
        omega
      · simp

theorem size_erase_le (c : Catalog α key) (k : String) : (c.erase k).size ≤ c.size :=
  List.length_filter_le _ _

theorem nodup_items (c : Catalog α key) : c.items.Nodup := by
  refine c.ordered.imp ?_
  rintro a b hlt rfl
  exact String.lt_irrefl _ hlt

/-- The listing of a catalog is set by its look-ups. -/
theorem ext_find? {a b : Catalog α key} (h : ∀ k, a.find? k = b.find? k) : a = b := by
  have hmem : ∀ x, x ∈ a.items ↔ x ∈ b.items := fun x => by
    rw [← mem_def, ← mem_def, mem_iff_find?, mem_iff_find?, h]
  have hperm := (List.perm_ext_iff_of_nodup a.nodup_items b.nodup_items).2 hmem
  refine ext (hperm.eq_of_pairwise ?_ a.ordered b.ordered)
  intro x y _ _ hxy hyx
  exact absurd (String.lt_trans hxy hyx) (String.lt_irrefl _)

/-- Of two items with one key that are added, the later stays. -/
theorem insert_insert (c : Catalog α key) {a b : α} (h : key a = key b) :
    (c.insert a).insert b = c.insert b := by
  apply ext_find?
  intro k
  rw [find?_insert, find?_insert, find?_insert, h]
  split
  · rfl
  · rfl

/-- Nothing changes when an item of the catalog is added once more. -/
theorem insert_of_find? {c : Catalog α key} {a : α} (h : c.find? (key a) = some a) :
    c.insert a = c := by
  apply ext_find?
  intro k
  rw [find?_insert]
  split
  · rename_i hk
    rw [hk, h]
  · rfl

theorem erase_comm (c : Catalog α key) (k k' : String) :
    (c.erase k).erase k' = (c.erase k').erase k := by
  apply ext_find?
  intro x
  simp only [find?_erase]
  split <;> split <;> rfl

/-! ## Catalogs of lists -/

theorem find?_foldl_insert (l : List α) (c : Catalog α key) (k : String) :
    (l.foldl insert c).find? k = (l.reverse.find? (key · == k)).or (c.find? k) := by
  induction l generalizing c with
  | nil => rfl
  | cons a rest ih =>
    rw [List.foldl_cons, ih, find?_insert, List.reverse_cons, List.find?_append, Option.or_assoc]
    by_cases h : k = key a
    · simp [h]
    · simp [h, Ne.symm h]

/-- A list without two items of one key makes a catalog of just its items. -/
theorem find?_ofList_eq_some_iff {l : List α} (h : ∀ a ∈ l, ∀ b ∈ l, key a = key b → a = b)
    {k : String} {a : α} : (ofList l : Catalog α key).find? k = some a ↔ a ∈ l ∧ key a = k := by
  rw [ofList, find?_foldl_insert, find?_empty, Option.or_none]
  refine ⟨fun hf => ?_, ?_⟩
  · exact ⟨List.mem_reverse.1 (List.mem_of_find?_eq_some hf), by simpa using List.find?_some hf⟩
  · rintro ⟨ha, rfl⟩
    cases hf : l.reverse.find? (key · == key a) with
    | none => simpa using List.find?_eq_none.1 hf a (List.mem_reverse.2 ha)
    | some b =>
      have hb := List.mem_reverse.1 (List.mem_of_find?_eq_some hf)
      rw [h b hb a ha (by simpa using List.find?_some hf)]

/-- Items that are in order make a catalog with just this listing. -/
theorem ofList_items (c : Catalog α key) : ofList c.items = c := by
  refine ext_find? fun k => Option.ext fun a => ?_
  rw [find?_ofList_eq_some_iff fun a ha b hb => eq_of_key_eq ha hb, find?_eq_some_iff, mem_def]

end Catalog

/-- A finite map from names to texts, in order of the names. -/
abbrev Dictionary := Catalog (String × String) Prod.fst

end BuildPool
