import BuildPool.Json.Codec
import BuildPool.Proofs.Json.Text
import Mathlib.Data.List.Forall2
import Mathlib.Logic.Relation

/-!
# Documents of values

A value is told by more documents than the one that is written for it: the members of an object may
stand in any order, a record may have members that nobody asks for, and what has its default may be
left out. Edits of this kind, one after the other and at any depth, lead from one document of a value
to another, and all of them are read as this value.
-/

namespace BuildPool.Json

open BuildPool.Number Relation

/-- The documents of the values of a type, and the edits that change nothing about the value. -/
class Document (α : Type) where
  Tells : Json → α → Prop
  Edit : Json → Json → Prop

export Document (Tells Edit)

class LawfulDocument (α : Type) [Decode α] [Document α] : Prop where
  decode_of_tells {j : Json} {a : α} : Tells j a → decode j = .ok a
  tells_of_edit {j j' : Json} {a : α} : Edit α j j' → Tells j a → Tells j' a
  /-- What may be edited has parts. -/
  ne_null_of_edit {j j' : Json} : Edit α j j' → j ≠ .null ∧ j' ≠ .null

export LawfulDocument (decode_of_tells tells_of_edit ne_null_of_edit)

/-- Every value is told by the document that is written for it. -/
class Faithful (α : Type) [Encode α] [Document α] : Prop where
  tells_encode (a : α) : Tells (encode a) a
  encode_ne_null (a : α) : encode a ≠ .null

export Faithful (tells_encode encode_ne_null)

/-- The documents that are written for the values of a type have texts that tell them. -/
class Textual (α : Type) [Encode α] : Prop where
  writable (a : α) : (encode a).Writable

export Textual (writable)

attribute [simp] tells_encode writable

theorem tells_of_edits {α : Type} [Decode α] [Document α] [LawfulDocument α] {j j' : Json} {a : α}
    (hedits : ReflTransGen (Edit α) j j') (h : Tells j a) : Tells j' a := by
  induction hedits with
  | refl => exact h
  | tail _ hedit ih => exact tells_of_edit hedit ih

/-! ## Plain values -/

/-- A value without parts is told by what is read as it, and there is nothing to edit. -/
instance (priority := low) plainDocument {α : Type} [Decode α] : Document α where
  Tells j a := decode j = .ok a
  Edit _ _ := False

instance (priority := low) lawful_plainDocument {α : Type} [Decode α] :
    @LawfulDocument α _ plainDocument :=
  @LawfulDocument.mk α _ plainDocument id False.elim False.elim

instance : Textual Bool := ⟨fun _ => trivial⟩
instance : Textual String := ⟨fun _ => trivial⟩
instance : Textual Nat := ⟨fun _ => trivial⟩
instance : Textual Int32 := ⟨fun _ => trivial⟩
instance : Textual UInt32 := ⟨fun _ => trivial⟩
instance : Textual UInt64 := ⟨fun _ => trivial⟩

instance : Textual Float where
  writable f := by
    change (ofFloat f).Writable
    unfold ofFloat
    split
    · exact plain_decimalOf f
    · trivial

instance : Faithful Bool := ⟨fun _ => rfl, nofun⟩
instance : Faithful String := ⟨fun _ => rfl, nofun⟩

theorem decodeBelow_encode {bound n : Nat} (h : n < bound) :
    decodeBelow bound (encode n) = .ok n := by
  change (if 0 ≤ (n : Int) && (n : Int) < (bound : Int) then _ else _) = _
  rw [if_pos (by simpa using h)]
  rfl

instance : Faithful UInt32 where
  tells_encode n := by
    change (decodeBelow UInt32.size (encode n.toNat)).map UInt32.ofNat = .ok n
    rw [decodeBelow_encode n.toNat_lt]
    exact congrArg Except.ok UInt32.ofNat_toNat
  encode_ne_null := nofun

instance : Faithful UInt64 where
  tells_encode n := by
    change (decodeBelow UInt64.size (encode n.toNat)).map UInt64.ofNat = .ok n
    rw [decodeBelow_encode n.toNat_lt]
    exact congrArg Except.ok UInt64.ofNat_toNat
  encode_ne_null := nofun

instance : Faithful Int32 where
  tells_encode n := by
    change (if Int32.minValue.toInt ≤ n.toInt && n.toInt ≤ Int32.maxValue.toInt then _ else _) = _
    rw [if_pos, Int32.ofInt_toInt]
    simp only [Bool.and_eq_true, decide_eq_true_eq]
    exact ⟨n.minValue_le_toInt, n.toInt_le⟩
  encode_ne_null := nofun

/-- The decimal of a finite number tells the number that it is read as. -/
theorem tells_float {f g : Float} (hfinite : f.isFinite = true)
    (hread : (decimalOf f).toFloat? = some g) : Tells (encode f) g := by
  have hwritten : encode f = .decimal (decimalOf f) := if_pos hfinite
  change decode (encode f) = .ok g
  rw [hwritten]
  simp only [decode, hread]

theorem tells_zero : Tells (encode (0 : Float)) (0 : Float) :=
  tells_float (by decide +kernel) (by decide +kernel)

/-! ## Lists -/

section Lists

variable {α : Type}

/-- What is read item by item. -/
theorem mapM_eq_ok {β : Type} {read : α → Except Fault β} {items : List α} {l : List β}
    (h : List.Forall₂ (fun item b => read item = .ok b) items l) : items.mapM read = .ok l := by
  induction h with
  | nil => rfl
  | cons hitem _ ih => rw [List.mapM_cons, hitem, ih]; rfl

/-- One item of a list is edited. -/
instance [Document α] : Document (List α) where
  Tells j l := ∃ items, j = .array items ∧ List.Forall₂ Tells items l
  Edit j j' := ∃ front item item' back, Edit α item item' ∧
    j = .array (front ++ item :: back) ∧ j' = .array (front ++ item' :: back)

theorem forall₂_replace {R : Json → α → Prop} {item item' : Json}
    (h : ∀ a, R item a → R item' a) {front back : List Json} {l : List α}
    (hl : List.Forall₂ R (front ++ item :: back) l) :
    List.Forall₂ R (front ++ item' :: back) l := by
  induction front generalizing l with
  | nil =>
    cases hl with
    | cons hitem hback => exact .cons (h _ hitem) hback
  | cons first rest ih =>
    cases hl with
    | cons hfirst hrest => exact .cons hfirst (ih hrest)

instance [Decode α] [Document α] [LawfulDocument α] : LawfulDocument (List α) where
  decode_of_tells := by
    rintro j l ⟨items, rfl, h⟩
    exact mapM_eq_ok (h.imp fun _ _ => decode_of_tells)
  tells_of_edit := by
    rintro j j' l ⟨front, item, item', back, hedit, rfl, rfl⟩ ⟨items, heq, h⟩
    cases heq
    exact ⟨_, rfl, forall₂_replace (fun _ => tells_of_edit hedit) h⟩
  ne_null_of_edit := by
    rintro j j' ⟨front, item, item', back, -, rfl, rfl⟩
    exact ⟨nofun, nofun⟩

theorem writableItems_iff {items : List Json} :
    WritableItems items ↔ ∀ item ∈ items, item.Writable := by
  induction items with
  | nil => exact ⟨fun _ => List.forall_mem_nil _, fun _ => trivial⟩
  | cons item rest ih => rw [WritableItems, ih, List.forall_mem_cons]

instance [Encode α] [Textual α] : Textual (List α) where
  writable l := by
    refine writableItems_iff.2 fun item hitem => ?_
    obtain ⟨a, -, rfl⟩ := List.mem_map.1 hitem
    exact writable a

theorem tells_map [Encode α] [Document α] {l : List α} {g : α → α}
    (h : ∀ a ∈ l, Tells (encode a) (g a)) : Tells (encode l) (l.map g) :=
  ⟨l.map encode, rfl,
    List.forall₂_map_left_iff.2 (List.forall₂_map_right_iff.2 (List.forall₂_same.2 h))⟩

theorem tells_list [Encode α] [Document α] {l : List α} (h : ∀ a ∈ l, Tells (encode a) a) :
    Tells (encode l) l := by
  have hmap := tells_map (g := fun a => a) h
  rwa [List.map_id'] at hmap

instance [Encode α] [Document α] [Faithful α] : Faithful (List α) where
  tells_encode _ := tells_list fun a _ => tells_encode a
  encode_ne_null _ := nofun

/-! ## Optional values -/

instance [Document α] : Document (Option α) where
  Tells
    | j, none => j = .null
    | j, some a => j ≠ .null ∧ Tells j a
  Edit := Edit α

instance [Decode α] [Document α] [LawfulDocument α] : LawfulDocument (Option α) where
  decode_of_tells := by
    intro j o h
    cases o with
    | none => exact (congrArg decode h).trans rfl
    | some a =>
      have hread : decode j = Except.map some (decode j : Except Fault α) := by
        cases j <;> first | rfl | exact absurd rfl h.1
      rw [hread, decode_of_tells h.2]
      rfl
  tells_of_edit := by
    intro j j' o hedit h
    cases o with
    | none => exact absurd h (ne_null_of_edit (α := α) hedit).1
    | some a => exact ⟨(ne_null_of_edit (α := α) hedit).2, tells_of_edit hedit h.2⟩
  ne_null_of_edit := ne_null_of_edit (α := α)

instance [Encode α] [Textual α] : Textual (Option α) where
  writable
    | none => trivial
    | some a => writable a

theorem tells_option [Encode α] [Document α] {o : Option α}
    (h : ∀ a ∈ o, encode a ≠ .null ∧ Tells (encode a) a) : Tells (encode o) o := by
  cases o with
  | none => rfl
  | some a => exact h a rfl

@[simp] theorem tells_option_encode [Encode α] [Document α] [Faithful α] (o : Option α) :
    Tells (encode o) o :=
  tells_option fun a _ => ⟨encode_ne_null a, tells_encode a⟩

end Lists

/-! ## Dictionaries -/

/-- An entry of a dictionary as a member. -/
def textMember (entry : String × String) : String × Json := (entry.1, .string entry.2)

/-- The members of a dictionary are put in another order. -/
instance : Document Dictionary where
  Tells j d := ∃ entries : List (String × String),
    entries.Perm d.toList ∧ j = .object (entries.map textMember)
  Edit j j' := ∃ members members' : List (String × Json),
    members.Perm members' ∧ j = .object members ∧ j' = .object members'

/-- Entries in any order make the same dictionary. -/
theorem ofList_eq_of_perm {entries : List (String × String)} {d : Dictionary}
    (h : entries.Perm d.toList) : Catalog.ofList entries = d := by
  have hone : ∀ a ∈ entries, ∀ b ∈ entries, a.1 = b.1 → a = b := fun a ha b hb =>
    Catalog.eq_of_key_eq (Catalog.mem_toList.1 (h.mem_iff.1 ha))
      (Catalog.mem_toList.1 (h.mem_iff.1 hb))
  refine Catalog.ext_find? fun k => Option.ext fun a => ?_
  rw [Catalog.find?_ofList_eq_some_iff hone, Catalog.find?_eq_some_iff, h.mem_iff,
    Catalog.mem_toList]

theorem perm_map_textMember {entries : List (String × String)} {members : List (String × Json)}
    (h : (entries.map textMember).Perm members) :
    ∃ entries' : List (String × String), entries'.Perm entries ∧
      members = entries'.map textMember := by
  induction members generalizing entries with
  | nil =>
    obtain rfl := List.map_eq_nil_iff.1 (List.perm_nil.1 h)
    exact ⟨[], .nil, rfl⟩
  | cons m rest ih =>
    obtain ⟨entry, hentry, rfl⟩ := List.mem_map.1 (h.mem_iff.2 List.mem_cons_self)
    obtain ⟨front, back, rfl⟩ := List.append_of_mem hentry
    have hmiddle : (entry :: (front ++ back)).Perm (front ++ entry :: back) :=
      List.perm_middle.symm
    obtain ⟨entries', hperm, rfl⟩ := ih ((hmiddle.map textMember).trans h).cons_inv
    exact ⟨entry :: entries', (hperm.cons entry).trans hmiddle, rfl⟩

instance : LawfulDocument Dictionary where
  decode_of_tells := by
    rintro j d ⟨entries, hperm, rfl⟩
    have htexts : (entries.map textMember).mapM
        (fun (name, value) => (decode value : Except Fault String).map ((name, ·))) =
        .ok entries := by
      refine mapM_eq_ok (List.forall₂_map_left_iff.2 (List.forall₂_same.2 fun entry _ => ?_))
      rfl
    change (entries.map textMember).mapM
        (fun (name, value) => (decode value : Except Fault String).map ((name, ·))) >>=
          (fun texts => pure (Catalog.ofList texts)) = .ok d
    rw [htexts, ← ofList_eq_of_perm hperm]
    rfl
  tells_of_edit := by
    rintro j j' d ⟨members, members', hperm, rfl, rfl⟩ ⟨entries, hentries, heq⟩
    cases heq
    obtain ⟨entries', hperm', rfl⟩ := perm_map_textMember hperm
    exact ⟨entries', hperm'.trans hentries, rfl⟩
  ne_null_of_edit := by
    rintro j j' ⟨members, members', -, rfl, rfl⟩
    exact ⟨nofun, nofun⟩

theorem writableMembers_iff {members : List (String × Json)} :
    WritableMembers members ↔ ∀ m ∈ members, m.2.Writable := by
  induction members with
  | nil => exact ⟨fun _ => List.forall_mem_nil _, fun _ => trivial⟩
  | cons m rest ih => rw [WritableMembers, ih, List.forall_mem_cons]

instance : Textual Dictionary where
  writable d := by
    refine writableMembers_iff.2 fun m hm => ?_
    obtain ⟨entry, -, rfl⟩ := List.mem_map.1 hm
    trivial

instance : Faithful Dictionary where
  tells_encode d := ⟨d.toList, .refl _, rfl⟩
  encode_ne_null _ := nofun

end BuildPool.Json
