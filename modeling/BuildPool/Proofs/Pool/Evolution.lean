import BuildPool.Proofs.Ledger.Evolution
import BuildPool.Proofs.Pool.Writes

/-!
# Builds in the course of a pool

Along every course ids are given out one after the other, and each build comes from its former
record. An operation makes one kind of change, and of each build at most one. So a build that ended
or was dropped never waits again.
-/

namespace BuildPool

open BuildPool.Time Ledger

/-! ## What an operation makes of a record -/

namespace Op

/-- Why an operation writes records anew, if it does. -/
def cause : Op → Option Cause
  | .pass _ => some .assignment
  | .delivered .. => some .acknowledgement
  | .undelivered _ => some .rollback
  | .progress .. => some .progress
  | .complete .. => some .report
  | .scan .. | .restart .. => some .loss
  | .cancel .. => some .cancellation
  | .satisfy .. => some .cacheHit
  | .submit .. | .register .. | .heartbeat .. | .wake | .takeWakeUp | .takeSaveRequest => none

/-- The build that an operation names as the one to change. -/
def named : Op → Option BuildId
  | .cancel _ id | .progress _ id _ _ | .complete _ id _ | .satisfy _ id _ => some id
  | _ => none

/-- A change that an operation can make: of the build that it names, if it names one. -/
def Makes (op : Op) (b b' : Build) : Prop :=
  (∀ id, op.named = some id → b.id = id) ∧
    ∃ k maxRetries, op.cause = some k ∧ Build.Change maxRetries k b b'

variable {op : Op} {given : List BuildId} {l l' : Ledger} {maxRetries : Nat} {k : Cause}
  {b b' : Build}

theorem makes_of_only {id : BuildId} (hnamed : op.named = some id) (hcause : op.cause = some k)
    (h : Only id maxRetries k b b') : op.Makes b b' := by
  refine ⟨fun x hx => ?_, k, maxRetries, hcause, h.2⟩
  rw [hnamed] at hx
  cases hx
  exact h.1

theorem makes_of_change (hnamed : op.named = none) (hcause : op.cause = some k)
    (h : Build.Change maxRetries k b b') : op.Makes b b' := by
  refine ⟨fun x hx => ?_, k, maxRetries, hcause, h⟩
  rw [hnamed] at hx
  cases hx

theorem Makes.change (h : op.Makes b b') : ∃ k maxRetries, Build.Change maxRetries k b b' :=
  ⟨h.2.choose, h.2.choose_spec.choose, h.2.choose_spec.choose_spec.2⟩

theorem Writes.changes (hl : l.Sound given) (h : op.Writes given l l') :
    Changes given op.Makes l l' := by
  cases h with
  | nothing => exact .refl given _ l
  | submit fresh absent hs => exact changes_submit fresh absent hs
  | cancel hs => exact (changes_cancel hl.records hs).mono fun _ _ => makes_of_only rfl rfl
  | progress hs => exact (changes_progress hs).mono fun _ _ => makes_of_only rfl rfl
  | complete hs => exact (changes_complete hl.records hs).mono fun _ _ => makes_of_only rfl rfl
  | satisfy hs => exact (changes_satisfy? hl.records hs).mono fun _ _ => makes_of_only rfl rfl
  | pass backlog waits once =>
    exact (changes_give waits once).mono fun _ _ => makes_of_change rfl rfl
  | delivered hs =>
    exact (changes_acknowledge? hs).mono fun _ _ hb => makes_of_change rfl rfl hb.2
  | undelivered hs =>
    exact (changes_rollback? hs).mono fun _ _ hb => makes_of_change rfl rfl hb.2
  | scan pairs => exact (changes_loseAll hl _ pairs).mono fun _ _ => makes_of_change rfl rfl
  | restart => exact (changes_ofImage hl _ _ _).mono fun _ _ => makes_of_change rfl rfl

end Op

/-! ## Every operation -/

namespace Course

variable {c d : Course} {op : Op} {ops : List Op}

theorem changes_after (h : c.Sound) (hadmits : c.Admits op) :
    Changes c.given op.Makes c.pool.ledger (c.after op).pool.ledger :=
  (writes_after h hadmits).changes h.pool.ledger

theorem evolves_after (h : c.Sound) (hadmits : c.Admits op) :
    Evolves c.given c.pool.ledger (c.after op).pool.ledger :=
  ((changes_after h hadmits).mono fun _ _ hb => hb.change).evolves

theorem given_enter {α : Type} (c : Course) (result : Except Refusal (α × Pool)) :
    (c.enter result).given = c.given := by
  unfold enter
  split <;> rfl

/-- Only a submission gives an id. -/
theorem given_after_cases (c : Course) (op : Op) :
    (c.after op).given = c.given ∨
      ∃ now r id, op = .submit now r id ∧ (c.after op).given = c.given ++ [id] := by
  cases op with
  | submit now r id =>
    simp only [after]
    split
    · exact .inr ⟨now, r, id, rfl, rfl⟩
    · exact .inl rfl
  | cancel | progress | complete | register | heartbeat => exact .inl (given_enter c _)
  | delivered | undelivered =>
    simp only [after]
    split
    · exact .inl rfl
    · exact .inl rfl
  | satisfy | pass | wake | scan | takeWakeUp | takeSaveRequest | restart => exact .inl rfl

/-- Ids are only ever added, at the end. -/
theorem given_after (c : Course) (op : Op) : c.given <+: (c.after op).given := by
  rcases given_after_cases c op with heq | ⟨-, -, id, -, heq⟩
  · exact heq ▸ List.prefix_refl c.given
  · exact heq ▸ List.prefix_append c.given [id]

/-! ## Every run -/

theorem Run.sound (h : c.Sound) (hrun : Run c ops d) : d.Sound := by
  induction hrun with
  | nil => exact h
  | snoc _ hadmits ih => exact sound_after ih hadmits

theorem Run.given_prefix (hrun : Run c ops d) : c.given <+: d.given := by
  induction hrun with
  | nil => exact List.prefix_refl c.given
  | snoc _ _ ih => exact ih.trans (given_after _ _)

theorem Run.evolves (h : c.Sound) (hrun : Run c ops d) :
    Evolves c.given c.pool.ledger d.pool.ledger := by
  induction hrun with
  | nil => exact .refl c.given c.pool.ledger
  | snoc hrun hadmits ih =>
    exact ih.trans (evolves_after (hrun.sound h) hadmits) hrun.given_prefix.subset

/-- What a build keeps as long as it is there: what was submitted, and all of it once it ended. -/
theorem Run.of_find? {id : BuildId} {b b' : Build} (h : c.Sound) (hrun : Run c ops d)
    (hb : c.pool.ledger.find? id = some b) (hb' : d.pool.ledger.find? id = some b') :
    b'.submission = b.submission ∧ (b.isTerminal = true → b' = b) := by
  have hid := (h.pool.ledger.records.numbered id b hb).mem
  obtain ⟨x, hx, hsame⟩ := hrun.evolves h id hid b' hb'
  rw [hb] at hx
  cases hx
  exact hsame

/-- A build that was dropped does not come back. -/
theorem Run.find?_eq_none {id : BuildId} (h : c.Sound) (hrun : Run c ops d) (hid : id ∈ c.given)
    (hnone : c.pool.ledger.find? id = none) : d.pool.ledger.find? id = none := by
  cases hd : d.pool.ledger.find? id with
  | none => rfl
  | some b' =>
    obtain ⟨b, hb, -⟩ := hrun.evolves h id hid b' hd
    rw [hnone] at hb
    cases hb

/-- A build that ended or was dropped is not taken off the backlog any more. -/
theorem Run.not_popped {id : BuildId} {e : Entry} {l : Ledger} (h : c.Sound) (hrun : Run c ops d)
    (hid : id ∈ c.given) (hend : ∀ b, c.pool.ledger.find? id = some b → b.isTerminal = true)
    (hp : d.pool.ledger.popQueued = (some e, l)) : e.build ≠ id := by
  rintro rfl
  have hlists : Lists d.given d.pool.ledger ([] ++ d.pool.ledger.backlog.toList) :=
    (hrun.sound h).pool.ledger.lists
  obtain ⟨b', hb', hq, rfl⟩ := of_popQueued_eq_some hlists hp
  obtain ⟨b, hb, -, hsame⟩ := hrun.evolves h b'.id hid b' hb'
  obtain rfl := hsame (hend b hb)
  exact Build.ne_queued_of_isTerminal (hend b' hb) hq

theorem Run.unmoved {id : BuildId} {b b' : Build} (h : c.Sound) (hrun : Run c ops d)
    (hb : c.pool.ledger.find? id = some b) (hb' : d.pool.ledger.find? id = some b') :
    b'.priority = b.priority ∧ b'.sequence = b.sequence := by
  have hsame := (hrun.of_find? h hb hb').1
  simp only [Build.submission, Prod.mk.injEq] at hsame
  obtain ⟨-, -, -, hpriority, -, -, -, hsequence⟩ := hsame
  exact ⟨hpriority, hsequence⟩

/-- What is submitted later gets a larger number. -/
theorem Run.sequence_lt {now : Instant} {r : Request} {id x : BuildId} {b bx : Build} {p : Pool}
    (h : c.Sound) (hrun : Run c ops d) (hnew : id ∉ d.given)
    (hs : d.pool.submitAs now r id = .ok (b, p)) (hx : c.pool.ledger.find? x = some bx) :
    bx.sequence < b.sequence := by
  have hrecords := (hrun.sound h).pool.ledger.records
  obtain ⟨l, hl, -⟩ := Pool.submitAs_eq_ok hs
  obtain ⟨-, rfl, -⟩ := submit_eq_ok (hrecords.find?_eq_none hnew) hl
  have hle := (h.pool.ledger.records.numbered x bx hx).le_length
  have hprefix := hrun.given_prefix.length_le
  change bx.sequence < d.pool.ledger.nextSequence
  rw [hrecords.next]
  omega

end Course

end BuildPool
