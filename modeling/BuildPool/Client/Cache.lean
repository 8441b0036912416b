import BuildPool.Catalog
import BuildPool.Client.Call

/-!
# The artifact cache

Artifacts are looked up and stored on the cache server under their key.
-/

namespace BuildPool.Client

open BuildPool.Json

inductive CacheFailure
  /-- Nobody was reached, or the reply makes no sense. -/
  | unanswered
  | status (code : Nat)
deriving DecidableEq, Repr

def CacheFailure.message : CacheFailure → String
  | unanswered => "Cache request failed"
  | status code => "Cache returned HTTP " ++ toString code

/-- The list of artifacts as the cache holds it. -/
structure CacheData where
  artifacts : List String
deriving DecidableEq, Repr

instance : Encode CacheData where
  encode d := .object [("artifacts", encode d.artifacts)]

instance : Decode CacheData where
  decode j := do
    let r ← record ["artifacts"] j
    return { artifacts := ← r.required "artifacts" }

structure CacheEntry where
  data : CacheData
  metadata : Dictionary := Catalog.empty
deriving DecidableEq, Repr

instance : Encode CacheEntry where
  encode e := .object [("data", encode e.data), ("metadata", encode e.metadata)]

instance : Decode CacheEntry where
  decode j := do
    let r ← record ["data", "metadata"] j
    return { data := ← r.required "data", metadata := ← r.withDefault "metadata" Catalog.empty }

def cacheAddress (server key : String) : String := baseOf server ++ "/cache/" ++ key

def lookUpCall (server key : String) : HttpCall := ⟨"GET", cacheAddress server key, none⟩

def storeCall (server key : String) (e : CacheEntry) : HttpCall :=
  ⟨"PUT", cacheAddress server key, some (encode e)⟩

/-- What the reply to a lookup says: the artifacts, or that there are none. -/
def lookUpResult : Option Reply → Except CacheFailure (Option (List String))
  | none => .error .unanswered
  | some r =>
    if r.status == 404 then .ok none
    else if r.isSuccess then
      match r.read CacheEntry with
      | .ok e => .ok (some e.data.artifacts)
      | .error _ => .error .unanswered
    else .error (.status r.status)

def storeResult : Option Reply → Except CacheFailure Unit
  | none => .error .unanswered
  | some r => if r.isSuccess then .ok () else .error (.status r.status)

end BuildPool.Client
