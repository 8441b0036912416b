import BuildPool.Json.Codec

/-!
# Calls to other servers

A call is a request with a JSON body or none, and its answer is a reply or nothing, if no server was
reached.
-/

namespace BuildPool.Client

open BuildPool.Json

structure HttpCall where
  method : String
  /-- The address of the server with the path behind it. -/
  address : String
  body : Option Json := none

structure Reply where
  status : Nat
  body : String := ""
deriving DecidableEq, Repr

/-- An address without the slashes at its end. -/
def baseOf (address : String) : String :=
  String.ofList ((address.toList.reverse.dropWhile (· == '/')).reverse)

namespace Reply

def isSuccess (r : Reply) : Bool := 200 ≤ r.status && r.status < 300

/-- Whether the status says that something is wrong on either side. -/
def isError (r : Reply) : Bool := 400 ≤ r.status

/-- The text of the body. Two statuses come without one. -/
def content (r : Reply) : String := if r.status == 204 || r.status == 304 then "" else r.body

def read (α : Type) [Decode α] (r : Reply) : Except Fault α := decodeText α r.content

end Reply

end BuildPool.Client
