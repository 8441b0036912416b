import BuildPool.Number.Shortest

/-!
# JSON values

A value keeps the members of an object in the order of the text, and more than one of a name. Whole
numbers are kept exactly and all others digit by digit, since how a number is read depends on where
it stands.
-/

namespace BuildPool

open BuildPool.Number

/--
A JSON value. A string or a member name with one half of a surrogate pair is grammatical but denotes
no text: the string, or the object with that member, is `garbled`.
-/
inductive Json
  | null
  | bool (b : Bool)
  | int (n : Int)
  | decimal (d : Decimal)
  | string (text : String)
  | array (items : List Json)
  | object (members : List (String × Json))
  | garbled
deriving Repr, BEq, Inhabited

namespace Json

/-- A number with a fraction. What has no decimal form is written as `null`. -/
def ofFloat (f : Float) : Json := if f.isFinite then .decimal (decimalOf f) else .null

def ofNat (n : Nat) : Json := .int n

/-! ## Measures -/

mutual

/-- How deep arrays and objects are nested. -/
def depth : Json → Nat
  | .array items => depthOfItems items + 1
  | .object members => depthOfMembers members + 1
  | _ => 0

def depthOfItems : List Json → Nat
  | [] => 0
  | item :: rest => max item.depth (depthOfItems rest)

def depthOfMembers : List (String × Json) → Nat
  | [] => 0
  | (_, value) :: rest => max value.depth (depthOfMembers rest)

end

mutual

/-- Whether every string denotes a text and every number is small enough to be read. A whole number
of a word is read as it is, and a larger one as a binary number. -/
def isReadable : Json → Bool
  | .garbled => false
  | .int n => n.natAbs < UInt64.size || (floatOfInt? n).isSome
  | .decimal d => d.toFloat?.isSome
  | .array items => itemsReadable items
  | .object members => membersReadable members
  | _ => true

def itemsReadable : List Json → Bool
  | [] => true
  | item :: rest => item.isReadable && itemsReadable rest

def membersReadable : List (String × Json) → Bool
  | [] => true
  | (_, value) :: rest => value.isReadable && membersReadable rest

end

end Json

end BuildPool
