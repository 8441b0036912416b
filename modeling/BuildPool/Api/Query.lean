import BuildPool.Number.Whole
import BuildPool.Text.Percent
import BuildPool.Text.Split

/-!
# Queries

The part of an address behind the question mark: names with values, separated by ampersands.
-/

namespace BuildPool.Api

open BuildPool.Number BuildPool.Text

/-- The names of a query with their values. Empty parts do not count. -/
def queryPairs (query : String) : List (String × String) :=
  ((splitAt '&' query.toList).filter (!·.isEmpty)).map fun part =>
    let (name, value) := cut '=' part
    (decodeFormPart name, decodeFormPart (value.getD []))

structure ListQuery where
  status : Option String
  limit : Option Nat
deriving DecidableEq, Repr

/-- Reads a query for a list. A known name may stand only once, and others do not matter. -/
def ListQuery.ofText? (query : String) : Option ListQuery :=
  let pairs := queryPairs query
  let valuesOf (name : String) := (pairs.filter (·.1 == name)).map Prod.snd
  match valuesOf "status", valuesOf "limit" with
  | statuses, limits =>
    if statuses.length ≤ 1 && limits.length ≤ 1 then
      match limits with
      | [] => some ⟨statuses.head?, none⟩
      | text :: _ => (readWord text).toOption.map fun n => ⟨statuses.head?, some n⟩
    else none

end BuildPool.Api
