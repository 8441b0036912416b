import BuildPool.Proofs.Ledger.Changes

/-!
# How records change over time

What was submitted stays as it was, and a build that ended stays as it is until it is dropped. A
build that was dropped does not come back.
-/

namespace BuildPool

open BuildPool.Time

namespace Ledger

/-- The builds that were given ids come from their former records. -/
def Evolves (given : List BuildId) (l l' : Ledger) : Prop :=
  ∀ id ∈ given, ∀ b', l'.find? id = some b' →
    ∃ b, l.find? id = some b ∧ b'.submission = b.submission ∧ (b.isTerminal = true → b' = b)

variable {given : List BuildId} {l l' : Ledger}

namespace Evolves

theorem refl (given : List BuildId) (l : Ledger) : Evolves given l l :=
  fun _ _ b' hb' => ⟨b', hb', rfl, fun _ => rfl⟩

theorem trans {given' : List BuildId} {l'' : Ledger} (h : Evolves given l l')
    (h' : Evolves given' l' l'') (hsub : given ⊆ given') : Evolves given l l'' := by
  intro id hid b'' hb''
  obtain ⟨b', hb', hsame', hend'⟩ := h' id (hsub hid) b'' hb''
  obtain ⟨b, hb, hsame, hend⟩ := h id hid b' hb'
  refine ⟨b, hb, hsame'.trans hsame, fun ht => ?_⟩
  obtain rfl := hend ht
  exact hend' ht

end Evolves

/-- One change keeps what was submitted, and comes to open builds only. -/
theorem Changes.evolves
    (h : Changes given (fun b b' => ∃ k maxRetries, Build.Change maxRetries k b b') l l') :
    Evolves given l l' := by
  intro id hid b' hb'
  obtain ⟨b, hb, rfl | ⟨k, maxRetries, hchange⟩⟩ := h.former id hid b' hb'
  · exact ⟨b', hb, rfl, fun _ => rfl⟩
  · refine ⟨b, hb, hchange.submission_eq, fun hend => ?_⟩
    rw [hchange.isTerminal_eq_false] at hend
    cases hend

end Ledger

end BuildPool
