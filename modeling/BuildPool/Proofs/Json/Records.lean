import BuildPool.Proofs.Json.Documents
import Mathlib.Data.List.Nodup

/-!
# Documents of records

A record is described by its fields: how each is written, what tells it and what may stand in for
it. From this description follow the documents of the record and their edits, and that all of them
are read alike.
-/

namespace BuildPool.Json

open Relation

variable {σ : Type}

/-! ## Fields -/

/-- A field of a record, by the documents that its member may have. -/
structure Field (σ : Type) where
  name : String
  write : σ → Json
  Tells : Json → σ → Prop
  Edit : Json → Json → Prop
  /-- What is written for the default, if the field has one. -/
  default : Option Json
  /-- The field has its default. -/
  Omits : σ → Prop
  tells_of_edit {j j' : Json} {s : σ} : Edit j j' → Tells j s → Tells j' s
  omits_of_edits {d j : Json} {s : σ} :
    default = some d → ReflTransGen Edit d j → Tells j s → Omits s
  writable (s : σ) : (write s).Writable

namespace Field

section Parts

variable {α : Type} [Encode α] [Decode α] [Document α] [LawfulDocument α] [Textual α]

def required (name : String) (get : σ → α) : Field σ where
  name
  write s := encode (get s)
  Tells j s := Json.Tells j (get s)
  Edit := Json.Edit α
  default := none
  Omits _ := False
  tells_of_edit := Json.tells_of_edit
  omits_of_edits := nofun
  writable s := Json.writable (get s)

def withDefault (name : String) (get : σ → α) (a : α) (ha : Json.Tells (encode a) a) :
    Field σ where
  name
  write s := encode (get s)
  Tells j s := Json.Tells j (get s)
  Edit := Json.Edit α
  default := some (encode a)
  Omits s := get s = a
  tells_of_edit := Json.tells_of_edit
  omits_of_edits := by
    intro d j s hd hedits hj
    cases hd
    -- The document is read as the default that it came from, and as the field.
    have hread := decode_of_tells (tells_of_edits hedits ha)
    rw [decode_of_tells hj] at hread
    cases hread
    rfl
  writable s := Json.writable (get s)

end Parts

/-- A whole number of a word. -/
def natural (name : String) (get : σ → Nat) (bound : Nat) (default : Option Nat)
    (hdefault : ∀ n ∈ default, n < bound) : Field σ where
  name
  write s := encode (get s)
  Tells j s := decodeBelow bound j = .ok (get s)
  Edit _ _ := False
  default := default.map encode
  Omits s := default = some (get s)
  tells_of_edit := False.elim
  omits_of_edits := by
    intro d j s hd hedits hj
    obtain ⟨n, rfl, rfl⟩ := Option.map_eq_some_iff.1 hd
    cases hedits with
    | refl =>
      rw [decodeBelow_encode (hdefault n rfl)] at hj
      cases hj
      rfl
    | tail _ hedit => exact hedit.elim
  writable s := Json.writable (get s)

/-- What was read goes on to what is read with it. -/
theorem ok_bind {α β : Type} (a : α) (read : α → Except Fault β) :
    (Except.ok a >>= read) = read a := rfl

/-- What the members of a record say of a field. -/
structure Given (f : Field σ) (r : Record) (s : σ) : Prop where
  tells : ∀ j, (f.name, j) ∈ r → f.Tells j s
  omits : f.name ∉ r.map Prod.fst → f.Omits s

variable {r : Record} {s : σ}

theorem Given.lookup_cases {f : Field σ} (h : f.Given r s) :
    (∃ j, r.lookup f.name = some j ∧ f.Tells j s) ∨ (r.lookup f.name = none ∧ f.Omits s) := by
  cases hj : r.lookup f.name with
  | some j =>
    obtain ⟨front, back, rfl, -⟩ := List.lookup_eq_some_iff.1 hj
    exact .inl ⟨j, rfl, h.tells j (List.mem_append_right _ List.mem_cons_self)⟩
  | none =>
    refine .inr ⟨rfl, h.omits fun hmem => ?_⟩
    obtain ⟨⟨name, j⟩, hmem, rfl⟩ := List.mem_map.1 hmem
    exact absurd rfl (bne_iff_ne.1 (List.lookup_eq_none_iff.1 hj _ hmem))

section Parts

variable {α : Type} [Encode α] [Decode α] [Document α] [LawfulDocument α] [Textual α]
  {name : String} {get : σ → α} {s' : σ}

@[simp] theorem tells_required : (required name get).Tells ((required name get).write s) s' ↔
    Json.Tells (encode (get s)) (get s') := Iff.rfl

@[simp] theorem tells_withDefault {a : α} {ha : Json.Tells (encode a) a} :
    (withDefault name get a ha).Tells ((withDefault name get a ha).write s) s' ↔
      Json.Tells (encode (get s)) (get s') := Iff.rfl

theorem read_required (h : (required name get).Given r s) :
    r.required name = .ok (get s) := by
  rcases h.lookup_cases with ⟨j, hj, htells⟩ | ⟨-, homits⟩
  · change r.lookup name = some j at hj
    rw [Record.required, hj]
    exact decode_of_tells htells
  · exact homits.elim

theorem read_withDefault {a : α} {ha : Json.Tells (encode a) a}
    (h : (withDefault name get a ha).Given r s) : r.withDefault name a = .ok (get s) := by
  rcases h.lookup_cases with ⟨j, hj, htells⟩ | ⟨hnone, homits⟩
  · change r.lookup name = some j at hj
    rw [Record.withDefault, hj]
    exact decode_of_tells htells
  · change r.lookup name = none at hnone
    change get s = a at homits
    rw [Record.withDefault, hnone, homits]

end Parts

theorem tells_natural {name : String} {get : σ → Nat} {bound : Nat} {default : Option Nat}
    {hdefault : ∀ n ∈ default, n < bound} (h : get s < bound) :
    (natural name get bound default hdefault).Tells
      ((natural name get bound default hdefault).write s) s := decodeBelow_encode h

theorem read_natural {name : String} {get : σ → Nat} {bound : Nat} {default : Option Nat}
    {hdefault : ∀ n ∈ default, n < bound}
    (h : (natural name get bound default hdefault).Given r s) :
    r.natural name bound default = .ok (get s) := by
  rcases h.lookup_cases with ⟨j, hj, htells⟩ | ⟨hnone, homits⟩
  · change r.lookup name = some j at hj
    simp only [Record.natural, hj]
    exact htells
  · change r.lookup name = none at hnone
    change default = some (get s) at homits
    simp only [Record.natural, hnone, homits]

end Field

/-! ## Records -/

/-- A record by its fields. -/
structure Form (σ : Type) where
  fields : List (Field σ)
  distinct : (fields.map Field.name).Nodup

namespace Form

def names (form : Form σ) : List String := form.fields.map Field.name

def known (form : Form σ) (members : List (String × Json)) : Record :=
  members.filter fun (name, _) => form.names.contains name

def write (form : Form σ) (s : σ) : Json :=
  .object (form.fields.map fun f => (f.name, f.write s))

/-- Each field is told by one member, or has its default. -/
def Tells (form : Form σ) (j : Json) (s : σ) : Prop :=
  ∃ members, j = .object members ∧ ((form.known members).map Prod.fst).Nodup ∧
    ∀ f ∈ form.fields, f.Given (form.known members) s

/-- One edit of a record. -/
inductive Edit (form : Form σ) : Json → Json → Prop
  /-- Nobody knows the new member. -/
  | insert (front back : List (String × Json)) {name : String} (value : Json)
    (unknown : name ∉ form.names) :
    Edit form (.object (front ++ back)) (.object (front ++ (name, value) :: back))
  | replace (front back : List (String × Json)) {name : String} (value value' : Json)
    (unknown : name ∉ form.names) :
    Edit form (.object (front ++ (name, value) :: back)) (.object (front ++ (name, value') :: back))
  | permute {members members' : List (String × Json)} (perm : members.Perm members') :
    Edit form (.object members) (.object members')
  /-- The member says what the default says, so it may be left out. -/
  | drop (front back : List (String × Json)) {f : Field σ} {d value : Json}
    (hf : f ∈ form.fields) (hdefault : f.default = some d) (hvalue : ReflTransGen f.Edit d value) :
    Edit form (.object (front ++ (f.name, value) :: back)) (.object (front ++ back))
  | inside (front back : List (String × Json)) {f : Field σ} {value value' : Json}
    (hf : f ∈ form.fields) (hedit : f.Edit value value') :
    Edit form (.object (front ++ (f.name, value) :: back))
      (.object (front ++ (f.name, value') :: back))

variable {form : Form σ} {j j' : Json} {s : σ}

theorem record_of_tells (h : form.Tells j s) :
    ∃ r, record form.names j = .ok r ∧ ∀ f ∈ form.fields, f.Given r s := by
  obtain ⟨members, rfl, hdistinct, hgiven⟩ := h
  exact ⟨form.known members, if_pos hdistinct, hgiven⟩

theorem eq_of_name_eq {f g : Field σ} (hf : f ∈ form.fields) (hg : g ∈ form.fields)
    (h : f.name = g.name) : f = g :=
  List.inj_on_of_nodup_map form.distinct hf hg h

theorem known_append (front back : List (String × Json)) :
    form.known (front ++ back) = form.known front ++ form.known back := List.filter_append _ _

theorem known_cons_of_mem {name : String} (h : name ∈ form.names) (value : Json)
    (members : List (String × Json)) :
    form.known ((name, value) :: members) = (name, value) :: form.known members :=
  List.filter_cons_of_pos (List.contains_iff_mem.2 h)

theorem known_cons_of_not_mem {name : String} (h : name ∉ form.names) (value : Json)
    (members : List (String × Json)) :
    form.known ((name, value) :: members) = form.known members :=
  List.filter_cons_of_neg fun hmem => h (List.contains_iff_mem.1 hmem)

theorem known_middle {f : Field σ} (hf : f ∈ form.fields) (front back : List (String × Json))
    (value : Json) : form.known (front ++ (f.name, value) :: back) =
      form.known front ++ (f.name, value) :: form.known back := by
  rw [known_append, known_cons_of_mem (List.mem_map_of_mem hf)]

theorem tells_of_edit (hedit : form.Edit j j') (h : form.Tells j s) : form.Tells j' s := by
  obtain ⟨members, rfl, hdistinct, hgiven⟩ := h
  cases hedit with
  | insert front back value unknown =>
    refine ⟨_, rfl, ?_⟩
    rw [known_append, known_cons_of_not_mem unknown, ← known_append]
    exact ⟨hdistinct, hgiven⟩
  | replace front back value value' unknown =>
    refine ⟨_, rfl, ?_⟩
    rw [known_append, known_cons_of_not_mem unknown, ← known_append]
    rw [known_append, known_cons_of_not_mem unknown, ← known_append] at hdistinct hgiven
    exact ⟨hdistinct, hgiven⟩
  | permute perm =>
    have hknown := perm.filter fun m => form.names.contains m.1
    refine ⟨_, rfl, (hknown.map Prod.fst).nodup_iff.1 hdistinct, fun f hf => ?_⟩
    obtain ⟨htells, homits⟩ := hgiven f hf
    exact ⟨fun j hj => htells j (hknown.mem_iff.2 hj),
      fun habsent => homits fun hmem => habsent ((hknown.map Prod.fst).mem_iff.1 hmem)⟩
  | @drop front back f d value hf hdefault hvalue =>
    rw [known_middle hf] at hdistinct hgiven
    refine ⟨_, rfl, ?_⟩
    rw [known_append]
    have hsub : (form.known front ++ form.known back).Sublist
        (form.known front ++ (f.name, value) :: form.known back) :=
      List.Sublist.append_left (List.sublist_cons_self _ _) _
    refine ⟨(hsub.map _).nodup hdistinct, fun g hg => ?_⟩
    obtain ⟨htells, homits⟩ := hgiven g hg
    refine ⟨fun j hj => htells j (hsub.subset hj), fun habsent => ?_⟩
    by_cases hname : g.name = f.name
    · obtain rfl := eq_of_name_eq hg hf hname
      refine g.omits_of_edits hdefault hvalue (htells value ?_)
      exact List.mem_append_right _ List.mem_cons_self
    · refine homits fun hmem => habsent ?_
      rw [List.map_append, List.map_cons, List.mem_append, List.mem_cons] at hmem
      rw [List.map_append, List.mem_append]
      exact hmem.imp_right fun hrest => hrest.resolve_left hname
  | @inside front back f value value' hf hedit =>
    rw [known_middle hf] at hdistinct hgiven
    refine ⟨_, rfl, ?_⟩
    rw [known_middle hf]
    have hnames : ∀ v : Json, (form.known front ++ (f.name, v) :: form.known back).map Prod.fst =
        (form.known front).map Prod.fst ++ f.name :: (form.known back).map Prod.fst := fun v => by
      rw [List.map_append, List.map_cons]
    rw [hnames] at hdistinct ⊢
    refine ⟨hdistinct, fun g hg => ?_⟩
    obtain ⟨htells, homits⟩ := hgiven g hg
    rw [hnames] at homits
    constructor
    case tells =>
      intro x hx
      rcases List.mem_append.1 hx with hfront | hrest
      · exact htells x (List.mem_append_left _ hfront)
      · rcases List.mem_cons.1 hrest with heq | hback
        · obtain ⟨hname, rfl⟩ := Prod.mk.injEq .. ▸ heq
          obtain rfl := eq_of_name_eq hg hf hname
          refine g.tells_of_edit hedit (htells value ?_)
          exact List.mem_append_right _ List.mem_cons_self
        · exact htells x (List.mem_append_right _ (List.mem_cons_of_mem _ hback))
    case omits =>
      rw [hnames]
      exact homits

theorem ne_null_of_edit (h : form.Edit j j') : j ≠ .null ∧ j' ≠ .null := by
  cases h <;> exact ⟨Json.noConfusion, Json.noConfusion⟩

/-- What is written for a record tells it, or another one, if each member tells its field. -/
theorem tells_write (form : Form σ) {s' : σ} (h : ∀ f ∈ form.fields, f.Tells (f.write s) s') :
    form.Tells (form.write s) s' := by
  have hknown : form.known (form.fields.map fun f => (f.name, f.write s)) =
      form.fields.map fun f => (f.name, f.write s) := by
    refine List.filter_eq_self.2 fun m hm => ?_
    obtain ⟨f, hf, rfl⟩ := List.mem_map.1 hm
    exact List.contains_iff_mem.2 (List.mem_map_of_mem hf)
  have hnames : (form.fields.map fun f => (f.name, f.write s)).map Prod.fst = form.names :=
    List.map_map
  refine ⟨_, rfl, ?_⟩
  rw [hknown, hnames]
  refine ⟨form.distinct, fun f hf => ⟨fun j hj => ?_, fun habsent => ?_⟩⟩
  · obtain ⟨g, hg, heq⟩ := List.mem_map.1 hj
    obtain ⟨hname, rfl⟩ := Prod.mk.injEq .. ▸ heq
    obtain rfl := eq_of_name_eq hg hf hname
    exact h g hg
  · rw [hnames] at habsent
    exact absurd (List.mem_map_of_mem hf) habsent

theorem writable_write (form : Form σ) (s : σ) : (form.write s).Writable := by
  refine writableMembers_iff.2 fun m hm => ?_
  obtain ⟨f, -, rfl⟩ := List.mem_map.1 hm
  exact f.writable s

end Form

/-! ## Round trips -/

section RoundTrips

variable {α : Type} [Decode α]

theorem decodeText_of_ofText? {text : String} {j : Json} (h : ofText? text = some j) :
    decodeText α text = decode j := by
  rw [decodeText, h]

variable [Encode α]

/-- A value comes back from its document, and from the text of the document in either form. -/
structure RoundTrips (a : α) : Prop where
  document : decode (encode a) = .ok a
  compact : decodeText α (encode a).compact = .ok a
  pretty : decodeText α (encode a).pretty = .ok a

theorem roundTrips [Textual α] {a : α} (h : decode (encode a) = .ok a) : RoundTrips a where
  document := h
  compact := (decodeText_of_ofText? (ofText?_compact (writable a))).trans h
  pretty := (decodeText_of_ofText? (ofText?_pretty (writable a))).trans h

end RoundTrips

end BuildPool.Json
