import Mathlib.Algebra.Order.Field.Basic
import Mathlib.Algebra.Order.Field.Rat
import Mathlib.Data.Prod.Lex
import Mathlib.Data.String.Basic
import BuildPool.Proofs.Roster.Allotment
import BuildPool.Proofs.Roster.Reachable

/-!
# Preference

Which worker a build goes to. Workers that can take it are ranked by the share of their slots in
use, then by the latest heartbeat, then by id. Shares are rational numbers; the pool compares them
by cross-multiplication of machine words, which is the same as long as both workers have slots.
-/

namespace BuildPool

open BuildPool.Time

namespace Worker

variable {a b c : Worker}

/-! ## Ranks -/

/-- The share of its slots that a worker has in use. -/
def share (w : Worker) : ℚ := w.load / w.capacity

/-- The first worker has the smaller share of its slots in use; or both have the same share, and the
heartbeat of the first is later, or as late and its id is smaller. -/
def Ahead (a b : Worker) : Prop :=
  a.share < b.share ∨ a.share = b.share ∧
    (b.lastHeartbeat < a.lastHeartbeat ∨ a.lastHeartbeat = b.lastHeartbeat ∧ a.id < b.id)

/-- What decides between two workers, as one value. -/
def rank (w : Worker) : ℚ ×ₗ ℤᵒᵈ ×ₗ ℕᵒᵈ ×ₗ String :=
  toLex (w.share, toLex (OrderDual.toDual w.lastHeartbeat.second,
    toLex (OrderDual.toDual w.lastHeartbeat.nano, w.id.text)))

theorem ahead_iff : a.Ahead b ↔ a.rank < b.rank := by
  simp only [rank, Prod.Lex.toLex_lt_toLex, OrderDual.toDual_lt_toDual, OrderDual.toDual_inj]
  refine or_congr_right (and_congr_right fun _ => ?_)
  obtain ⟨s, n⟩ := a.lastHeartbeat
  obtain ⟨t, m⟩ := b.lastHeartbeat
  change (Instant.before ⟨t, m⟩ ⟨s, n⟩ = true ∨ _ ∧ a.id.text < b.id.text) ↔ _
  simp only [Instant.before, Bool.or_eq_true, decide_eq_true_eq, Bool.and_eq_true, beq_iff_eq,
    Instant.mk.injEq]
  grind

theorem rank_eq_iff : a.rank = b.rank ↔
    a.share = b.share ∧ a.lastHeartbeat = b.lastHeartbeat ∧ a.id = b.id := by
  simp only [rank, EmbeddingLike.apply_eq_iff_eq, Prod.mk.injEq, WorkerId.text_inj]
  obtain ⟨s, n⟩ := a.lastHeartbeat
  obtain ⟨t, m⟩ := b.lastHeartbeat
  simp only [Instant.mk.injEq, and_assoc]

theorem not_ahead_self (a : Worker) : ¬ a.Ahead a := fun h => lt_irrefl _ (ahead_iff.1 h)

theorem Ahead.trans (hab : a.Ahead b) (hbc : b.Ahead c) : a.Ahead c :=
  ahead_iff.2 ((ahead_iff.1 hab).trans (ahead_iff.1 hbc))

theorem ahead_or_ahead (h : a.id ≠ b.id) : a.Ahead b ∨ b.Ahead a := by
  rw [ahead_iff, ahead_iff]
  exact lt_or_gt_of_ne fun heq => h (rank_eq_iff.1 heq).2.2

/-! ## Comparing without division -/

theorem not_instant_lt_self (t : Instant) : ¬ t < t := by
  change ¬ t.before t = true
  simp [Instant.before]

theorem share_lt_iff (ha : 0 < a.capacity) (hb : 0 < b.capacity) :
    a.share < b.share ↔ a.load * b.capacity < b.load * a.capacity := by
  rw [share, share, div_lt_div_iff₀ (by exact_mod_cast ha) (by exact_mod_cast hb)]
  exact_mod_cast Iff.rfl

theorem share_eq_iff (ha : 0 < a.capacity) (hb : 0 < b.capacity) :
    a.share = b.share ↔ a.load * b.capacity = b.load * a.capacity := by
  rw [share, share, div_eq_div_iff (by exact_mod_cast ha.ne') (by exact_mod_cast hb.ne')]
  exact_mod_cast Iff.rfl

theorem preferred_iff (ha : 0 < a.capacity) (hb : 0 < b.capacity) :
    a.preferred b = true ↔ a.Ahead b := by
  unfold preferred Ahead
  rw [share_lt_iff ha hb, share_eq_iff ha hb]
  by_cases hload : a.load * b.capacity = b.load * a.capacity
  · by_cases hbeat : a.lastHeartbeat = b.lastHeartbeat
    · simp [hload, hbeat, not_instant_lt_self]
    · simp [hload, hbeat]
  · simp [hload]

/-! ## In machine words -/

/-- The number of builds that a worker holds, cut to 32 bits. -/
def inUse (w : Worker) : UInt32 := UInt32.ofNat w.active.size

theorem inUse_toNat {w : Worker} (h : w.Sound) : w.inUse.toNat = w.load := by
  have hsize : w.load < UInt32.size := h.fits.trans_lt w.info.capacity.toNat_lt_size
  exact (UInt32.toNat_ofNat' ..).trans (Nat.mod_eq_of_lt hsize)

/-- The load of one worker times the capacity of another, as a 64-bit word. -/
def cross (a b : Worker) : UInt64 := a.inUse.toUInt64 * b.info.capacity.toUInt64

theorem cross_toNat (ha : a.Sound) (b : Worker) : (a.cross b).toNat = a.load * b.capacity := by
  have hlt : a.load * b.capacity < 2 ^ 64 := by
    have hload : a.load < 2 ^ 32 := ha.fits.trans_lt a.info.capacity.toNat_lt_size
    have hcap : b.capacity < 2 ^ 32 := b.info.capacity.toNat_lt_size
    calc a.load * b.capacity < 2 ^ 32 * 2 ^ 32 := Nat.mul_lt_mul'' hload hcap
      _ = 2 ^ 64 := rfl
  rw [cross, UInt64.toNat_mul, UInt32.toNat_toUInt64, UInt32.toNat_toUInt64, inUse_toNat ha]
  exact Nat.mod_eq_of_lt hlt

/-- The comparison of two workers in machine words. -/
def compareWords (a b : Worker) : Ordering :=
  (compare (a.cross b) (b.cross a)).then
    ((compareOfLessAndEq b.lastHeartbeat a.lastHeartbeat).then (compareOfLessAndEq a.id b.id))

/-- Whether an online worker is below its capacity, in machine words. -/
def belowCapacity (w : Worker) : Bool := w.isOnline && w.inUse < w.info.capacity

theorem belowCapacity_eq {w : Worker} (h : w.Sound) : w.belowCapacity = w.hasFreeSlot := by
  have hlt : w.inUse < w.info.capacity ↔ w.load < w.capacity := by
    rw [UInt32.lt_iff_toNat_lt, inUse_toNat h, capacity]
  rw [belowCapacity, hasFreeSlot, decide_eq_decide.2 hlt]

/-- The worker is online, holds fewer builds than it has slots, and accepts the task. -/
def CanTake (w : Worker) (task : String) : Prop :=
  w.status ≠ .offline ∧ w.active.size < w.capacity ∧ w.info.supports task = true

theorem CanTake.capacity_pos {w : Worker} {task : String} (h : w.CanTake task) : 0 < w.capacity :=
  Nat.zero_lt_of_lt h.2.1

theorem capacity_pos_of_hasFreeSlot {w : Worker} (h : w.hasFreeSlot = true) : 0 < w.capacity := by
  simp only [hasFreeSlot, Bool.and_eq_true, decide_eq_true_eq] at h
  omega

theorem compare_cross_eq_lt_iff (ha : a.Sound) (hb : b.Sound) :
    compare (a.cross b) (b.cross a) = .lt ↔ a.load * b.capacity < b.load * a.capacity := by
  rw [Std.compare_eq_lt, UInt64.lt_iff_toNat_lt, cross_toNat ha, cross_toNat hb]

theorem compare_cross_eq_eq_iff (ha : a.Sound) (hb : b.Sound) :
    compare (a.cross b) (b.cross a) = .eq ↔ a.load * b.capacity = b.load * a.capacity := by
  rw [Std.compare_eq_iff_eq, ← UInt64.toNat_inj, cross_toNat ha, cross_toNat hb]

section
variable {α : Type} [LT α] [DecidableEq α] [∀ x y : α, Decidable (x < y)] {x y : α}

theorem compareOfLessAndEq_eq_lt_iff : compareOfLessAndEq x y = .lt ↔ x < y := by
  unfold compareOfLessAndEq
  by_cases hlt : x < y
  · simp only [hlt, if_true]
  · rw [if_neg hlt]
    split <;> simp [hlt]

theorem compareOfLessAndEq_eq_eq_iff (hself : ¬ x < x) :
    compareOfLessAndEq x y = .eq ↔ x = y := by
  unfold compareOfLessAndEq
  by_cases hlt : x < y
  · have hne : x ≠ y := fun heq => hself (heq ▸ hlt)
    simp [hlt, hne]
  · rw [if_neg hlt]
    split <;> simp [*]

end

theorem compareWords_eq_lt_iff (ha : a.Sound) (hb : b.Sound) (hapos : 0 < a.capacity)
    (hbpos : 0 < b.capacity) : a.compareWords b = .lt ↔ a.Ahead b := by
  rw [compareWords, Ordering.then_eq_lt, Ordering.then_eq_lt, compare_cross_eq_lt_iff ha hb,
    compare_cross_eq_eq_iff ha hb, compareOfLessAndEq_eq_lt_iff, compareOfLessAndEq_eq_lt_iff,
    compareOfLessAndEq_eq_eq_iff (not_instant_lt_self _), Ahead, share_lt_iff hapos hbpos,
    share_eq_iff hapos hbpos, @eq_comm _ b.lastHeartbeat]

theorem compareWords_eq_eq_iff (ha : a.Sound) (hb : b.Sound) (hapos : 0 < a.capacity)
    (hbpos : 0 < b.capacity) : a.compareWords b = .eq ↔ a.rank = b.rank := by
  have hself : ¬ a.id < a.id := String.lt_irrefl _
  rw [compareWords, Ordering.then_eq_eq, Ordering.then_eq_eq, compare_cross_eq_eq_iff ha hb,
    compareOfLessAndEq_eq_eq_iff (not_instant_lt_self _),
    compareOfLessAndEq_eq_eq_iff hself, ← share_eq_iff hapos hbpos, rank_eq_iff,
    @eq_comm _ b.lastHeartbeat]

theorem compareWords_eq_gt_iff (ha : a.Sound) (hb : b.Sound) (hapos : 0 < a.capacity)
    (hbpos : 0 < b.capacity) : a.compareWords b = .gt ↔ b.Ahead a := by
  have hlt := compareWords_eq_lt_iff ha hb hapos hbpos
  have heq := compareWords_eq_eq_iff ha hb hapos hbpos
  rw [ahead_iff] at hlt ⊢
  rcases lt_trichotomy a.rank b.rank with h | h | h
  · simp [hlt.2 h, h.le]
  · simp [heq.2 h, h]
  · have hnlt : a.compareWords b ≠ .lt := fun hc => h.not_gt (hlt.1 hc)
    have hneq : a.compareWords b ≠ .eq := fun hc => h.ne' (heq.1 hc)
    cases hc : a.compareWords b with
    | lt => exact absurd hc hnlt
    | eq => exact absurd hc hneq
    | gt => simp [h]

end Worker

/-! ## The least of a list -/

namespace Roster

open Worker

variable {r : Roster} {task : String} {w x : Worker} {ws rest : List Worker}

/-- The first of the least workers of a list, by the comparison in machine words. -/
def leastInWords : List Worker → Option Worker
  | [] => none
  | w :: rest =>
    some (rest.foldl (fun least w => if least.compareWords w = .gt then w else least) w)

/-- The selection among workers in any order, in machine words. -/
def selectInWords (ws : List Worker) (task : String) : Option Worker :=
  leastInWords (ws.filter fun w => w.belowCapacity && w.info.supports task)

theorem leastInWords_eq_best (h : ∀ w ∈ ws, w.Sound ∧ 0 < w.capacity) :
    leastInWords ws = best ws := by
  cases ws with
  | nil => rfl
  | cons x rest =>
    refine congrArg some ?_
    induction rest generalizing x with
    | nil => rfl
    | cons y rest ih =>
      obtain ⟨hx, hxpos⟩ := h x List.mem_cons_self
      obtain ⟨hy, hypos⟩ := h y (List.mem_cons_of_mem x List.mem_cons_self)
      have hstep : (if x.compareWords y = .gt then y else x) = if y.preferred x then y else x :=
        if_congr ((compareWords_eq_gt_iff hx hy hxpos hypos).trans
          (preferred_iff hypos hxpos).symm) rfl rfl
      rw [List.foldl_cons, List.foldl_cons, hstep]
      refine ih _ fun w hw => ?_
      rcases List.mem_cons.1 hw with rfl | hw
      · split
        · exact ⟨hy, hypos⟩
        · exact ⟨hx, hxpos⟩
      · exact h w (List.mem_cons_of_mem x (List.mem_cons_of_mem y hw))

/-- Nobody in a list ranks before its best worker. -/
theorem rank_foldl_preferred_le (h : ∀ w ∈ x :: rest, 0 < w.capacity) :
    ∀ w ∈ x :: rest,
      (rest.foldl (fun best w => if w.preferred best then w else best) x).rank ≤ w.rank := by
  induction rest generalizing x with
  | nil => simp
  | cons y rest ih =>
    have hx := h x List.mem_cons_self
    have hy := h y (List.mem_cons_of_mem x List.mem_cons_self)
    have hrest := fun w hw => h w (List.mem_cons_of_mem x (List.mem_cons_of_mem y hw))
    have hpref := (preferred_iff hy hx).trans ahead_iff
    rw [List.foldl_cons]
    split
    · rename_i hyx
      have ih := ih (List.forall_mem_cons.2 ⟨hy, hrest⟩)
      have hle := ih y List.mem_cons_self
      exact List.forall_mem_cons.2 ⟨hle.trans (hpref.1 hyx).le, ih⟩
    · rename_i hyx
      have ih := ih (List.forall_mem_cons.2 ⟨hx, hrest⟩)
      have hle := ih x List.mem_cons_self
      exact List.forall_mem_cons.2 ⟨hle, List.forall_mem_cons.2
        ⟨hle.trans (not_lt.1 fun hlt => hyx (hpref.2 hlt)), fun w hw =>
          ih w (List.mem_cons_of_mem x hw)⟩⟩

theorem rank_le_of_best (h : ∀ w ∈ ws, 0 < w.capacity) (hbest : best ws = some w) :
    ∀ x ∈ ws, w.rank ≤ x.rank := by
  unfold best at hbest
  split at hbest
  · cases hbest
  · cases hbest
    exact rank_foldl_preferred_le h

/-- Among workers with slots and different ids, the best is the one ahead of all others. -/
theorem best_eq_some_iff (hpos : ∀ w ∈ ws, 0 < w.capacity)
    (hids : ∀ a ∈ ws, ∀ b ∈ ws, a.id = b.id → a = b) :
    best ws = some w ↔ w ∈ ws ∧ ∀ x ∈ ws, x ≠ w → w.Ahead x := by
  constructor
  · intro hbest
    have hw := mem_of_best hbest
    refine ⟨hw, fun x hx hne => ahead_iff.2 ?_⟩
    exact lt_of_le_of_ne (rank_le_of_best hpos hbest x hx) fun heq =>
      hne (hids x hx w hw (rank_eq_iff.1 heq).2.2.symm)
  · rintro ⟨hw, hleast⟩
    cases hbest : best ws with
    | none =>
      rw [best_eq_none_iff.1 hbest] at hw
      cases hw
    | some v =>
      -- Otherwise each of the two would be ahead of the other.
      by_contra hne
      have hahead := hleast v (mem_of_best hbest) fun heq => hne (congrArg some heq)
      exact (ahead_iff.1 hahead).not_ge (rank_le_of_best hpos hbest w hw)

theorem best_perm {vs : List Worker} (hperm : vs.Perm ws) (hpos : ∀ w ∈ ws, 0 < w.capacity)
    (hids : ∀ a ∈ ws, ∀ b ∈ ws, a.id = b.id → a = b) : best vs = best ws := by
  have hmem := fun w => @List.Perm.mem_iff _ w _ _ hperm
  refine Option.ext fun w => ?_
  rw [best_eq_some_iff hpos hids, best_eq_some_iff]
  · simp only [hmem]
  · exact fun w hw => hpos w ((hmem w).1 hw)
  · exact fun a ha b hb => hids a ((hmem a).1 ha) b ((hmem b).1 hb)

/-! ## Selection -/

theorem selectInWords_eq (ws : List Worker) (task : String) (hsound : ∀ w ∈ ws, w.Sound) :
    selectInWords ws task =
      best (ws.filter fun w => w.hasFreeSlot && w.info.supports task) := by
  have hsame : ws.filter (fun w => w.belowCapacity && w.info.supports task) =
      ws.filter fun w => w.hasFreeSlot && w.info.supports task :=
    List.filter_congr fun w hw => by rw [belowCapacity_eq (hsound w hw)]
  rw [selectInWords, hsame]
  refine leastInWords_eq_best fun w hw => ?_
  obtain ⟨hmem, hw⟩ := List.mem_filter.1 hw
  exact ⟨hsound w hmem, capacity_pos_of_hasFreeSlot (Bool.and_eq_true _ _ ▸ hw).1⟩

theorem mem_candidates_iff : w ∈ r.candidates task ↔ w ∈ r.list ∧ w.CanTake task := by
  rw [candidates, List.mem_filter, CanTake, Worker.hasFreeSlot, Bool.and_eq_true, Bool.and_eq_true,
    isOnline_iff, decide_eq_true_eq, and_assoc]
  rfl

/-- The selection is the least of the workers that can take the task, whatever order they are
compared in, and the comparison in machine words is the order that it is meant to be. -/
structure SelectsLeast (r : Roster) (task : String) : Prop where
  nobody : r.select task = none ↔ ∀ w ∈ r.list, ¬ w.CanTake task
  least : ∀ w, r.select task = some w ↔
    (w ∈ r.list ∧ w.CanTake task) ∧ ∀ x ∈ r.list, x.CanTake task → x ≠ w → w.Ahead x
  anyOrder : ∀ ws : List Worker, ws.Perm r.list → selectInWords ws task = r.select task
  strict : IsStrictTotalOrder {w // w ∈ r.list ∧ w.CanTake task} fun a b => a.1.Ahead b.1
  compared : ∀ a ∈ r.list, ∀ b ∈ r.list, a.CanTake task → b.CanTake task →
    (a.compareWords b = .lt ↔ a.Ahead b) ∧ (a.compareWords b = .eq ↔ a = b) ∧
      (a.compareWords b = .gt ↔ b.Ahead a)
  words : ∀ a ∈ r.list, ∀ b ∈ r.list,
    a.inUse.toNat = a.active.size ∧ (a.cross b).toNat = a.active.size * b.info.capacity.toNat

theorem eq_of_id_eq (hw : w ∈ r.list) (hx : x ∈ r.list) (h : w.id = x.id) : w = x := by
  have hfind := find?_of_mem hw
  rw [h, find?_of_mem hx] at hfind
  exact (Option.some.inj hfind).symm

/-- The pool gives a build to the worker with the smallest share of its slots in use, of those to
the one that was heard from last, and of those to the one with the smallest id. -/
theorem Reachable.selectsLeast {r : Roster} (h : r.Reachable) (task : String) :
    r.SelectsLeast task := by
  have hsound : ∀ w ∈ r.list, w.Sound := fun w hw => h.sound _ w (find?_of_mem hw)
  have hpos : ∀ w ∈ r.candidates task, 0 < w.capacity := fun w hw =>
    (mem_candidates_iff.1 hw).2.capacity_pos
  have hids : ∀ a ∈ r.candidates task, ∀ b ∈ r.candidates task, a.id = b.id → a = b :=
    fun a ha b hb => eq_of_id_eq (mem_candidates_iff.1 ha).1 (mem_candidates_iff.1 hb).1
  exact {
    nobody := by
      rw [select, best_eq_none_iff, List.eq_nil_iff_forall_not_mem]
      simp only [mem_candidates_iff, not_and]
    least := fun w => by
      rw [select, best_eq_some_iff hpos hids]
      simp only [mem_candidates_iff, and_imp]
    anyOrder := fun ws hperm => by
      rw [selectInWords_eq ws task fun w hw => hsound w (hperm.mem_iff.1 hw)]
      exact best_perm (hperm.filter _) hpos hids
    strict := {
      irrefl := fun a => not_ahead_self a.1
      trans := fun a b c => Ahead.trans
      trichotomous := fun a b hab hba => Subtype.ext <| by_contra fun hne =>
        (ahead_or_ahead fun hid => hne (eq_of_id_eq a.2.1 b.2.1 hid)).elim hab hba }
    compared := fun a ha b hb hta htb => by
      have hsa := hsound a ha
      have hsb := hsound b hb
      have hpa := hta.capacity_pos
      have hpb := htb.capacity_pos
      refine ⟨compareWords_eq_lt_iff hsa hsb hpa hpb, ?_, compareWords_eq_gt_iff hsa hsb hpa hpb⟩
      rw [compareWords_eq_eq_iff hsa hsb hpa hpb]
      exact ⟨fun heq => eq_of_id_eq ha hb (rank_eq_iff.1 heq).2.2, congrArg rank⟩
    words := fun a ha b _ => ⟨inUse_toNat (hsound a ha), cross_toNat (hsound a ha) b⟩ }

/-- Two workers, of which the one with more slots holds a build. -/
def twoWorkers : Roster :=
  ((empty.after (.register { id := ⟨"v"⟩, address := "x", capacity := 2 } ⟨1, 0⟩)).after
    (.register { id := ⟨"w"⟩, address := "y", capacity := 1 } ⟨2, 0⟩)).after
      (.reserve ⟨"v"⟩ ⟨"a"⟩)

theorem selectsLeast_twoWorkers :
    (twoWorkers.select "t").map Worker.id = some ⟨"w"⟩ ∧ twoWorkers.SelectsLeast "t" :=
  ⟨by decide, (((Reachable.empty.after _).after _).after _).selectsLeast "t"⟩

end Roster

end BuildPool
