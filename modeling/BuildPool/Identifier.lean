import BuildPool.Catalog
import BuildPool.Text.Hex

/-!
# Identifiers

Builds get their ids from the pool, one for each number of a supply. Workers name themselves. Both
are ordered as texts, so the order of build ids is not the order of submission.
-/

namespace BuildPool

open BuildPool.Text

structure BuildId where
  text : String
deriving DecidableEq, Repr, Inhabited

structure WorkerId where
  text : String
deriving DecidableEq, Repr, Inhabited

@[simp] theorem BuildId.text_inj {a b : BuildId} : a.text = b.text ↔ a = b :=
  ⟨fun h => by cases a; cases b; rw [mk.injEq]; exact h, fun h => by rw [h]⟩

@[simp] theorem WorkerId.text_inj {a b : WorkerId} : a.text = b.text ↔ a = b :=
  ⟨fun h => by cases a; cases b; rw [mk.injEq]; exact h, fun h => by rw [h]⟩

/-- A set of build ids, in order. -/
abbrev BuildIds := Catalog BuildId BuildId.text

/-- A scrambled number in front of an id, so that ids of one time do not stand side by side. -/
def BuildId.scramble (n : Nat) : Nat := n * 2654435761 % UInt32.size

/-- The `n`-th id: its scrambled number, fixed groups, and the number itself, by which it differs
from all others. -/
def BuildId.nth (n : Nat) : BuildId :=
  ⟨String.ofList (hexPadded 8 (BuildId.scramble n)) ++ "-0000-4000-8000-" ++
    String.ofList (hexPadded 12 n)⟩

instance : LT BuildId := ⟨fun a b => a.text < b.text⟩
instance (a b : BuildId) : Decidable (a < b) := inferInstanceAs (Decidable (a.text < b.text))

instance : LT WorkerId := ⟨fun a b => a.text < b.text⟩
instance (a b : WorkerId) : Decidable (a < b) := inferInstanceAs (Decidable (a.text < b.text))

end BuildPool
