import BuildPool.Proofs.Ledger.Milestones

/-!
# Chronicles

All milestones from some moment on, one after the other. A build that ends has its end in the
chronicle once, and nothing of it comes later. No attempt starts twice.
-/

namespace BuildPool

open BuildPool.Time

namespace Build.Change

variable {maxRetries : Nat} {k : Cause} {b b' : Build}

/-- A build gets to be assigned only by an assignment. -/
theorem of_assigned (h : Change maxRetries k b b') (hs : b'.status = .assigned) :
    k = .assignment := by
  cases h with
  | assigned => rfl
  | advanced amount held =>
    unfold advance at hs
    split at hs
    · cases hs
    · rename_i hne
      exact absurd hs hne
  | reported r now _ =>
    have hend : (Ledger.verdict r).1.isTerminal = true := Ledger.isTerminal_verdict r
    change (Ledger.verdict r).1 = .assigned at hs
    rw [hs] at hend
    cases hend
  | started | rolledBack | requeued | exhausted | cancelled | satisfied => cases hs

theorem attempt_eq_of_running (h : Change maxRetries k b b') (hs : b'.status = .running) :
    b'.attempt = b.attempt := by
  have hattempt := h.attempt_eq
  cases h with
  | assigned => cases hs
  | _ => exact hattempt

end Build.Change

theorem Milestone.of_attempt? {m : Milestone} {a : BuildId × Nat} (h : m.attempt? = some a) :
    m = .started m.build ∧ a = (m.build.id, m.build.attempt) := by
  cases m with
  | started b => cases h; exact ⟨rfl, rfl⟩
  | finished b => cases h

namespace Ledger

/-- One ledger comes after another. Records change as operations may change them, builds that are
open do not vanish, and builds that got their ids since then are open. -/
structure Follows (given given' : List BuildId) (l l' : Ledger) : Prop where
  subset : given ⊆ given'
  former : ∀ id ∈ given, ∀ b', l'.find? id = some b' → ∃ b, l.find? id = some b ∧
    (b' = b ∨ ∃ k maxRetries, Build.Change maxRetries k b b')
  stays : ∀ id, l.IsOpen id → ∃ b', l'.find? id = some b'
  known : ∀ id b', l'.find? id = some b' → id ∈ given'
  fresh : ∀ id ∈ given', id ∉ given → l'.IsOpen id

/-- The milestones since a moment, set against the ledger of now. `Before` are the builds that had
ended at that moment. -/
structure Chronicle (Before : BuildId → Prop) (ms : List Milestone) (given : List BuildId)
    (l : Ledger) : Prop where
  known : ∀ id b, l.find? id = some b → id ∈ given
  before : ∀ id, Before id → id ∈ given ∧ ¬ l.IsOpen id
  ends : ∀ id, (∃ b, .finished b ∈ ms ∧ b.id = id) ↔
    (id ∈ given ∧ ¬ l.IsOpen id) ∧ ¬ Before id
  final : ms.Pairwise fun m m' => m.isEnd = true → m'.build.id ≠ m.build.id
  attempts : (ms.filterMap Milestone.attempt?).Nodup
  /-- The attempt that started is under way, or a later one is. -/
  begun : ∀ b, .started b ∈ ms → b.id ∈ given ∧ ∀ x, l.find? b.id = some x →
    b.attempt ≤ x.attempt ∧ (x.attempt = b.attempt → x.status ≠ .assigned)

variable {Before : BuildId → Prop} {ms : List Milestone} {given given' : List BuildId}
  {l l' : Ledger} {b c x : Build} {id : BuildId} {m : Milestone}

theorem not_isOpen_of_isTerminal (hb : l.find? id = some b) (hend : b.isTerminal = true) :
    ¬ l.IsOpen id := by
  rintro ⟨x, hx, hopen⟩
  rw [hb] at hx
  cases hx
  rw [hend] at hopen
  cases hopen

/-- What a milestone says of the build that passed it. -/
theorem of_mem_milestones (hm : m ∈ l.milestones l') :
    ∃ b, l.find? m.build.id = some b ∧ b.isTerminal = false ∧
      l'.find? m.build.id = some m.build ∧
      ((m = .finished m.build ∧ m.build.isTerminal = true) ∨
        (m = .started m.build ∧ b.status = .assigned ∧ m.build.status = .running)) := by
  obtain ⟨b, b', hb, hb', hbetween⟩ := mem_milestones.1 hm
  obtain ⟨rfl, hopen, hkind⟩ := Milestone.of_between hbetween
  exact ⟨b, hb, hopen, hb', hkind⟩

namespace Follows

/-- A build that is not open any more is never open again. -/
theorem isOpen (h : Follows given given' l l') (hid : id ∈ given) (hopen : l'.IsOpen id) :
    l.IsOpen id := by
  obtain ⟨b', hb', hopen'⟩ := hopen
  obtain ⟨b, hb, rfl | ⟨k, maxRetries, hchange⟩⟩ := h.former id hid b' hb'
  · exact ⟨b', hb, hopen'⟩
  · exact ⟨b, hb, hchange.isTerminal_eq_false⟩

end Follows

namespace Chronicle

theorem empty (h : Records given l) :
    Chronicle (fun id => id ∈ given ∧ ¬ l.IsOpen id) [] given l where
  known id b hb := (h.numbered id b hb).mem
  before _ hid := hid
  ends id := by
    constructor
    · rintro ⟨b, hb, -⟩
      cases hb
    · rintro ⟨hended, hnot⟩
      exact absurd hended hnot
  final := List.Pairwise.nil
  attempts := List.nodup_nil
  begun _ h := by cases h

theorem ends_step (h : Chronicle Before ms given l) (hf : Follows given given' l l')
    (id : BuildId) : (∃ b, .finished b ∈ ms ++ l.milestones l' ∧ b.id = id) ↔
      (id ∈ given' ∧ ¬ l'.IsOpen id) ∧ ¬ Before id := by
  constructor
  · rintro ⟨b, hb, rfl⟩
    rcases List.mem_append.1 hb with hold | hnew
    · obtain ⟨⟨hid, hended⟩, hnot⟩ := (h.ends b.id).1 ⟨b, hold, rfl⟩
      exact ⟨⟨hf.subset hid, fun hopen => hended (hf.isOpen hid hopen)⟩, hnot⟩
    · obtain ⟨x, hx, hopen, hb', ⟨-, hend⟩ | ⟨hstarted, -⟩⟩ := of_mem_milestones hnew
      · refine ⟨⟨hf.known _ _ hb', not_isOpen_of_isTerminal hb' hend⟩, ?_⟩
        intro hbefore
        exact (h.before _ hbefore).2 ⟨x, hx, hopen⟩
      · cases hstarted
  · rintro ⟨⟨hid, hended⟩, hnot⟩
    by_cases hold : id ∈ given
    · by_cases hopen : l.IsOpen id
      · -- It ends just now, and can be seen.
        obtain ⟨b', hb'⟩ := hf.stays id hopen
        obtain ⟨x, hx, hxopen⟩ := hopen
        have hend : b'.isTerminal = true := by
          cases hb'end : b'.isTerminal with
          | true => rfl
          | false => exact absurd ⟨b', hb', hb'end⟩ hended
        obtain rfl := id_of_find? hb'
        have hnew : .finished b' ∈ l.milestones l' :=
          mem_milestones.2 ⟨x, b', hx, hb', Milestone.between_of_end hxopen hend⟩
        exact ⟨b', List.mem_append_right _ hnew, rfl⟩
      · obtain ⟨b, hb, rfl⟩ := (h.ends id).2 ⟨⟨hold, hopen⟩, hnot⟩
        exact ⟨b, List.mem_append_left _ hb, rfl⟩
    · exact absurd (hf.fresh id hid hold) hended

theorem final_step (h : Chronicle Before ms given l) (l' : Ledger) :
    (ms ++ l.milestones l').Pairwise fun m m' => m.isEnd = true → m'.build.id ≠ m.build.id := by
  apply List.pairwise_append.2
  refine ⟨h.final, ?_, ?_⟩
  · exact (pairwise_milestones l l').imp fun hne _ => hne.symm
  · intro m hm m' hm' hend heq
    -- What passes a milestone is open, and an end in the chronicle is that of a closed build.
    obtain ⟨x, hx, hopen, -⟩ := of_mem_milestones hm'
    cases m with
    | started => cases hend
    | finished b =>
      have hclosed := ((h.ends b.id).1 ⟨b, hm, rfl⟩).1.2
      rw [heq] at hx
      exact hclosed ⟨x, hx, hopen⟩

theorem attempts_step (h : Chronicle Before ms given l) (hf : Follows given given' l l') :
    ((ms ++ l.milestones l').filterMap Milestone.attempt?).Nodup := by
  rw [List.filterMap_append]
  apply List.nodup_append.2
  refine ⟨h.attempts, ?_, ?_⟩
  · apply List.pairwise_filterMap.2
    apply (pairwise_milestones l l').imp
    intro m m' hne a ha a' ha' heq
    rw [(Milestone.of_attempt? ha).2, (Milestone.of_attempt? ha').2] at heq
    exact hne (congrArg Prod.fst heq)
  · intro a ha a' ha' heq
    obtain ⟨m, hm, hma⟩ := List.mem_filterMap.1 ha
    obtain ⟨m', hm', hma'⟩ := List.mem_filterMap.1 ha'
    obtain ⟨hstarted, rfl⟩ := Milestone.of_attempt? hma
    obtain ⟨hstarted', rfl⟩ := Milestone.of_attempt? hma'
    obtain ⟨hid, hattempt⟩ := Prod.mk.inj heq
    rw [hstarted] at hm
    obtain ⟨hgiven, hbegun⟩ := h.begun m.build hm
    obtain ⟨x, hx, -, hafter, ⟨hended, -⟩ | ⟨-, hassigned, hrunning⟩⟩ := of_mem_milestones hm'
    · rw [hstarted'] at hended
      cases hended
    · -- The attempt that starts now was still waiting, so it did not start before.
      rw [← hid] at hx hafter
      have hsame : x.attempt = m'.build.attempt := by
        obtain ⟨y, hy, heq | ⟨k, maxRetries, hchange⟩⟩ := hf.former _ hgiven _ hafter
        · rw [hx] at hy
          rw [heq, Option.some.inj hy]
        · rw [hx] at hy
          rw [hchange.attempt_eq_of_running hrunning, Option.some.inj hy]
      exact (hbegun x hx).2 (hsame.trans hattempt.symm) hassigned

theorem begun_step (h : Chronicle Before ms given l) (hf : Follows given given' l l') (b : Build)
    (hb : .started b ∈ ms ++ l.milestones l') : b.id ∈ given' ∧ ∀ x, l'.find? b.id = some x →
      b.attempt ≤ x.attempt ∧ (x.attempt = b.attempt → x.status ≠ .assigned) := by
  rcases List.mem_append.1 hb with hold | hnew
  · obtain ⟨hid, hbegun⟩ := h.begun b hold
    refine ⟨hf.subset hid, ?_⟩
    intro x hx
    obtain ⟨y, hy, rfl | ⟨k, maxRetries, hchange⟩⟩ := hf.former b.id hid x hx
    · exact hbegun x hy
    · obtain ⟨hle, hgone⟩ := hbegun y hy
      have hattempt := hchange.attempt_eq
      by_cases hk : k = .assignment
      · rw [if_pos hk] at hattempt
        exact ⟨by omega, by omega⟩
      · rw [if_neg hk] at hattempt
        exact ⟨by omega, fun _ hs => hk (hchange.of_assigned hs)⟩
  · obtain ⟨y, -, -, hb', ⟨hended, -⟩ | ⟨-, -, hrunning⟩⟩ := of_mem_milestones hnew
    · cases hended
    · refine ⟨hf.known _ _ hb', ?_⟩
      intro x hx
      have heq := Option.some.inj (hx.symm.trans hb')
      rw [heq]
      refine ⟨Nat.le_refl _, fun _ hs => ?_⟩
      rw [hrunning] at hs
      cases hs

theorem step (h : Chronicle Before ms given l) (hf : Follows given given' l l') :
    Chronicle Before (ms ++ l.milestones l') given' l' where
  known := hf.known
  before id hid := by
    obtain ⟨hgiven, hended⟩ := h.before id hid
    exact ⟨hf.subset hgiven, fun hopen => hended (hf.isOpen hgiven hopen)⟩
  ends := h.ends_step hf
  final := h.final_step l'
  attempts := h.attempts_step hf
  begun := h.begun_step hf

end Chronicle

end Ledger

end BuildPool
