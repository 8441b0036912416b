import BuildPool.Catalog
import BuildPool.Json.Reader
import BuildPool.Json.Writer

/-!
# Typed values in JSON

A type says how its values are written and read. A record is read from an object, whose unknown
members are ignored and whose known ones stand at most once, or from an array of the fields in
order. A faulty value is refused for its grammar or for its shape.
-/

namespace BuildPool.Json

/-- Why a text is refused: it is not JSON, or it is JSON of another shape. -/
inductive Fault
  | grammar
  | shape
deriving DecidableEq, Repr

/-- The name of a fault on the wire. -/
def Fault.category : Fault → String
  | .grammar => "syntax"
  | .shape => "data"

class Encode (α : Type) where
  encode : α → Json

class Decode (α : Type) where
  decode : Json → Except Fault α

export Encode (encode)
export Decode (decode)

/-- A value of a wrong kind has a wrong shape, unless it cannot be read at all. -/
def mismatch : Json → Fault
  | .array _ => .shape
  | .object _ => .shape
  | j => if j.isReadable then .shape else .grammar

def decodeText (α : Type) [Decode α] (text : String) : Except Fault α :=
  match ofText? text with
  | none => .error .grammar
  | some j => decode j

/-! ## Plain values -/

instance : Encode Json := ⟨id⟩
instance : Encode Bool := ⟨.bool⟩
instance : Encode String := ⟨.string⟩
instance : Encode Nat := ⟨ofNat⟩
instance : Encode Int := ⟨.int⟩
instance : Encode Float := ⟨ofFloat⟩
instance : Encode Int32 := ⟨fun n => .int n.toInt⟩
instance : Encode UInt32 := ⟨fun n => .int n.toNat⟩
instance : Encode UInt64 := ⟨fun n => .int n.toNat⟩

instance : Decode Bool where
  decode
    | .bool b => .ok b
    | j => .error (mismatch j)

instance : Decode String where
  decode
    | .string text => .ok text
    | j => .error (mismatch j)

instance : Decode Float where
  decode j :=
    let number := match j with
      | .int n => BuildPool.Number.floatOfInt? n
      | .decimal d => d.toFloat?
      | _ => none
    match number with
    | some f => .ok f
    | none => .error (mismatch j)

/-- A whole number below a bound. -/
def decodeBelow (bound : Nat) : Json → Except Fault Nat
  | .int n => if 0 ≤ n && n < bound then .ok n.toNat else .error (mismatch (.int n))
  | j => .error (mismatch j)

instance : Decode UInt32 := ⟨fun j => (decodeBelow UInt32.size j).map UInt32.ofNat⟩
instance : Decode UInt64 := ⟨fun j => (decodeBelow UInt64.size j).map UInt64.ofNat⟩

instance : Decode Int32 where
  decode
    | .int n =>
      if Int32.minValue.toInt ≤ n && n ≤ Int32.maxValue.toInt then .ok (Int32.ofInt n)
      else .error (mismatch (.int n))
    | j => .error (mismatch j)

/-! ## Lists, optional values and dictionaries -/

instance {α : Type} [Encode α] : Encode (List α) := ⟨fun l => .array (l.map encode)⟩

instance {α : Type} [Decode α] : Decode (List α) where
  decode
    | .array items => items.mapM decode
    | j => .error (mismatch j)

instance {α : Type} [Encode α] : Encode (Option α) where
  encode
    | none => .null
    | some a => encode a

instance {α : Type} [Decode α] : Decode (Option α) where
  decode
    | .null => .ok none
    | j => (decode j).map some

instance {α β : Type} [Encode α] [Encode β] : Encode (α × β) :=
  ⟨fun (a, b) => .array [encode a, encode b]⟩

instance : Encode Dictionary where
  encode d := .object (d.toList.map fun (name, text) => (name, .string text))

/-- Of two members with one name the later counts. -/
instance : Decode Dictionary where
  decode
    | .object members => do
      let texts ← members.mapM fun (name, value) => (decode value).map ((name, ·))
      return Catalog.ofList texts
    | j => .error (mismatch j)

/-! ## Names -/

/-- Reads one of a set of names, written as a string or as an object with the name and `null`. -/
def decodeName {α : Type} (named? : String → Option α) : Json → Except Fault α
  | .string name =>
    match named? name with
    | some a => .ok a
    | none => .error .shape
  | .object ((name, value) :: rest) =>
    match named? name, value, rest with
    | none, _, _ => .error .shape
    | some a, .null, [] => .ok a
    | some _, .null, _ => .error .grammar
    | some _, value, _ => .error (mismatch value)
  | _ => .error .grammar

/-! ## Records -/

/-- The fields of a record that were written, by name. -/
abbrev Record := List (String × Json)

/-- The fields of a record with these names, in order. -/
def record (names : List String) : Json → Except Fault Record
  | .object members =>
    let known := members.filter fun (name, _) => names.contains name
    if (known.map Prod.fst).Nodup then .ok known else .error .shape
  | .array items =>
    if items.length ≤ names.length then .ok (names.zip items) else .error .grammar
  | j => .error (mismatch j)

namespace Record

/-- A field that has to be written. -/
def required {α : Type} [Decode α] (r : Record) (name : String) : Except Fault α :=
  match r.lookup name with
  | some value => decode value
  | none => .error .shape

/-- A field that may be left out. -/
def withDefault {α : Type} [Decode α] (r : Record) (name : String) (default : α) :
    Except Fault α :=
  match r.lookup name with
  | some value => decode value
  | none => .ok default

/-- A field that may be left out or `null`. -/
def optional {α : Type} [Decode α] (r : Record) (name : String) : Except Fault (Option α) :=
  r.withDefault name none

/-- A whole number below `2 ^ 32` or `2 ^ 64`. -/
def natural (r : Record) (name : String) (bound : Nat) (default : Option Nat := none) :
    Except Fault Nat :=
  match r.lookup name, default with
  | some value, _ => decodeBelow bound value
  | none, some n => .ok n
  | none, none => .error .shape

end Record

end BuildPool.Json
