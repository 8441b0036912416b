import BuildPool.Proofs.Wire.Snapshots

/-!
# Other documents of a snapshot

Whatever edits a document of a snapshot went through, it is read as the snapshot. Only the numbers
are a reason to the contrary: not every finite number is read as it is written.
-/

namespace BuildPool.Snapshot

open BuildPool.Json BuildPool.Number BuildPool.Time Relation

/-- Members that nobody knows, another order, members left out that have their defaults: none of
this changes what is read, at whatever depth and however often it is done. -/
theorem decode_of_edits {s : Snapshot} {j : Json} (h : s.Writable) (hread : s.ReadsNumbers)
    (hedits : ReflTransGen (Edit Snapshot) (encode s) j) :
    decode j = .ok s ∧ ∀ text, ofText? text = some j → decodeText Snapshot text = .ok s := by
  have hdecode : decode j = .ok s := decode_of_tells (tells_of_edits hedits (tells h hread))
  exact ⟨hdecode, fun text htext => (decodeText_of_ofText? htext).trans hdecode⟩

/-! ## A small snapshot -/

/-- One build that has come so far. -/
def sample (progress : Float) : Snapshot where
  version := 1
  savedAt := ⟨1767225600, 0⟩
  image := {
    builds := [{
      id := ⟨"a"⟩, project := "p", task := "t", priority := 0, cacheEnabled := false
      options := Catalog.empty, submittedAt := ⟨1767225600, 0⟩, sequence := 1, status := .running
      progress, worker := some ⟨"w"⟩, retries := 0, attempt := 1
      startedAt := some ⟨1767225600, 0⟩, finishedAt := none, outcome := none }]
    nextSequence := 2 }

theorem writable_sample {progress : Float} (h : progress.isFinite = true) :
    (sample progress).Writable where
  words := {
    builds := by
      intro b hb
      obtain rfl := List.mem_singleton.1 hb
      have hshort : 1 < UInt32.size := by decide
      exact ⟨(by decide : 1 < UInt64.size), Nat.lt_of_succ_lt hshort, hshort⟩
    nextSequence := (by decide : 2 < UInt64.size)
    counters := Counters.inWords_zero }
  instants := by
    intro t ht
    have heq : ∀ x ∈ (sample progress).instants, x = ⟨1767225600, 0⟩ := by
      simp [instants, sample, Build.instants]
    rw [heq t ht]
    decide +kernel
  numbers := by
    intro f hf
    obtain rfl := List.mem_singleton.1 hf
    exact h

/-- The sample without its workers, of which there are none, and with a remark in front. -/
def remarked : Json := .object [("remark", .null), ("version", encode (sample 0.5).version),
  ("saved_at", encode (sample 0.5).savedAt), ("builds", encode (sample 0.5).image)]

theorem decode_of_edits_remarked : decode remarked = .ok (sample 0.5) := by
  have hread : (sample 0.5).ReadsNumbers := by
    intro f hf
    obtain rfl := List.mem_singleton.1 hf
    decide +kernel
  have hdropped : form.Edit (encode (sample 0.5)) (.object [
      ("version", encode (sample 0.5).version), ("saved_at", encode (sample 0.5).savedAt),
      ("builds", encode (sample 0.5).image)]) :=
    .drop [_, _, _] [] (f := form.fields[3]) (List.getElem_mem _) rfl .refl
  have hremarked : form.Edit (.object [
      ("version", encode (sample 0.5).version), ("saved_at", encode (sample 0.5).savedAt),
      ("builds", encode (sample 0.5).image)]) remarked :=
    .insert [] _ .null (by decide)
  exact (decode_of_edits (writable_sample (by decide +kernel)) hread
    (.tail (.single hdropped) hremarked)).1

/-- A progress of sixteen digits is read as the next number, so the sample with it is not read as it
was written. -/
theorem not_decode_of_edits_of_finite : ¬ ∀ s : Snapshot, s.Writable →
    ∀ j, ReflTransGen (Edit Snapshot) (encode s) j → decode j = .ok s := by
  intro h
  have hread : decode (encode (sample 0.9452706955539223)) ≠ .ok (sample 0.9452706955539223) := by
    decide +kernel
  exact hread (h _ (writable_sample (by decide +kernel)) _ .refl)

end BuildPool.Snapshot
