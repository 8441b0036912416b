import BuildPool.Proofs.Wire.Tolerance

/-!
# Saves that are cut off

A save takes many steps, and any of them can fail or be the last before a crash. What was not synced
by then may come out of the crash as anything. Still the snapshot file holds one whole document at
all times: that of the last save that came as far as its last step.
-/

namespace BuildPool.Snapshot

open BuildPool.Json BuildPool.Number

/-! ## Files -/

/-- A file, and whether its content is sure to outlive a crash. -/
structure Held where
  content : ByteArray
  synced : Bool

/-- The snapshot file and the second file beside it. -/
structure Volume where
  current : Option Held := none
  temporary : Option Held := none

/-- What a save does, one after the other. -/
inductive Step
  | makeDirectory
  /-- The second file is made, or emptied. -/
  | create
  | write (byte : UInt8)
  | sync
  /-- The second file takes the place of the snapshot file. -/
  | rename

/-- The content of a file after a crash. -/
def Held.afterCrash (left : ByteArray → ByteArray) (f : Held) : Held :=
  if f.synced then f else ⟨left f.content, true⟩

namespace Volume

def step (v : Volume) : Step → Volume
  | .makeDirectory => v
  | .create => { v with temporary := some ⟨.empty, false⟩ }
  | .write byte => { v with temporary := v.temporary.map fun f => ⟨f.content.push byte, false⟩ }
  | .sync => { v with temporary := v.temporary.map fun f => { f with synced := true } }
  | .rename =>
    match v.temporary with
    | some f => ⟨some f, none⟩
    | none => v

def crash (left : ByteArray → ByteArray) (v : Volume) : Volume :=
  ⟨v.current.map (Held.afterCrash left), v.temporary.map (Held.afterCrash left)⟩

def disk (v : Volume) : Disk := ⟨v.current.map Held.content, v.temporary.map Held.content⟩

end Volume

/-! ## Attempts -/

def stepsOf (content : ByteArray) : List Step :=
  .makeDirectory :: .create :: (content.data.toList.map .write ++ [.sync, .rename])

/-- A save that came so far: it was done, or failed, or was cut off by a crash. -/
structure Attempt where
  snapshot : Snapshot
  /-- How many of its steps were taken. -/
  count : Nat
  /-- What a crash at that point leaves of a content that was not synced. -/
  crash : Option (ByteArray → ByteArray) := none

namespace Attempt

def document (a : Attempt) : ByteArray := a.snapshot.toText.toUTF8

def steps (a : Attempt) : List Step := stepsOf a.document

def takesEffect (a : Attempt) : Bool := a.steps.length ≤ a.count

def progress (a : Attempt) : Progress :=
  if a.count < 2 then .notBegun
  else if a.takesEffect then .done
  else .written (a.count - 2)

end Attempt

def Volume.attempt (v : Volume) (a : Attempt) : Volume :=
  let v := (a.steps.take a.count).foldl Volume.step v
  match a.crash with
  | none => v
  | some left => v.crash left

/-- The snapshot of the last save that took effect. -/
def lastSaved (attempts : List Attempt) : Option Snapshot :=
  ((attempts.filter Attempt.takesEffect).getLast?).map Attempt.snapshot

/-! ## One attempt -/

section Steps

variable {v : Volume} {content : ByteArray} {n : Nat} {a : Attempt}

theorem data_foldl_push (bytes : List UInt8) (c : ByteArray) :
    (bytes.foldl ByteArray.push c).data = c.data ++ bytes.toArray := by
  induction bytes generalizing c with
  | nil => simp
  | cons byte rest ih =>
    rw [List.foldl_cons, ih]
    apply Array.ext'
    simp [ByteArray.data_push]

theorem foldl_write (bytes : List UInt8) (v : Volume) (c : ByteArray) :
    (bytes.map Step.write).foldl Volume.step { v with temporary := some ⟨c, false⟩ } =
      { v with temporary := some ⟨bytes.foldl ByteArray.push c, false⟩ } := by
  induction bytes generalizing c with
  | nil => rfl
  | cons byte rest ih => exact ih (c.push byte)

theorem foldl_push_take (content : ByteArray) (n : Nat) :
    (content.data.toList.take n).foldl ByteArray.push .empty = Disk.front n content := by
  apply ByteArray.ext
  rw [data_foldl_push, Disk.front, ByteArray.data_extract]
  apply Array.ext'
  simp

theorem front_of_size_le (h : content.size ≤ n) : Disk.front n content = content := by
  apply ByteArray.ext
  rw [Disk.front, ByteArray.data_extract]
  exact Array.extract_eq_self_of_le h

theorem length_stepsOf (content : ByteArray) :
    (stepsOf content).length = content.size + 4 := by
  have hlength : content.data.toList.length = content.size := rfl
  simp [stepsOf, hlength]

/-- The first steps make the second file and write to it. -/
theorem foldl_take_of_le (v : Volume) (h : n ≤ content.size) :
    ((stepsOf content).take (n + 2)).foldl Volume.step v =
      { v with temporary := some ⟨Disk.front n content, false⟩ } := by
  have hlength : n ≤ (content.data.toList.map Step.write).length := by simpa using h
  rw [stepsOf, List.take_succ_cons, List.take_succ_cons, List.take_append_of_le_length hlength,
    ← List.map_take, List.foldl_cons, List.foldl_cons]
  exact (foldl_write _ v .empty).trans (by rw [foldl_push_take])

theorem drop_stepsOf (content : ByteArray) :
    (stepsOf content).drop (content.size + 2) = [.sync, .rename] := by
  have hlength : (content.data.toList.map Step.write).length = content.size := by
    rw [List.length_map]
    rfl
  rw [stepsOf, List.drop_succ_cons, List.drop_succ_cons, List.drop_left' hlength]

/-- The last two steps sync the second file and rename it. -/
theorem foldl_take_add (v : Volume) (content : ByteArray) (n : Nat) :
    ((stepsOf content).take (content.size + 2 + n)).foldl Volume.step v =
      ([Step.sync, .rename].take n).foldl Volume.step
        { v with temporary := some ⟨content, false⟩ } := by
  rw [List.take_add, drop_stepsOf, List.foldl_append, foldl_take_of_le v (Nat.le_refl _),
    front_of_size_le (Nat.le_refl _)]

/-- What has become of the files when so many steps were taken. -/
theorem foldl_take_cases (v : Volume) (content : ByteArray) (n : Nat) :
    (n < 2 ∧ ((stepsOf content).take n).foldl Volume.step v = v) ∨
    (2 ≤ n ∧ n < content.size + 4 ∧ ∃ synced, ((stepsOf content).take n).foldl Volume.step v =
      { v with temporary := some ⟨Disk.front (n - 2) content, synced⟩ }) ∨
    (content.size + 4 ≤ n ∧ ((stepsOf content).take n).foldl Volume.step v =
      ⟨some ⟨content, true⟩, none⟩) := by
  match n with
  | 0 => exact .inl ⟨by omega, rfl⟩
  | 1 => exact .inl ⟨by omega, rfl⟩
  | n + 2 =>
    refine .inr ?_
    -- Beyond the last byte there are two steps left, and the file is complete before both.
    by_cases hwriting : n ≤ content.size
    · exact .inl ⟨by omega, by omega, false, foldl_take_of_le v hwriting⟩
    obtain ⟨k, rfl⟩ := Nat.exists_eq_add_of_lt (Nat.lt_of_not_le hwriting)
    rw [show content.size + k + 1 + 2 = content.size + 2 + (k + 1) by omega, foldl_take_add]
    cases k with
    | zero =>
      refine .inl ⟨by omega, by omega, true, ?_⟩
      rw [front_of_size_le (by omega)]
      rfl
    | succ k => exact .inr ⟨by omega, by simp [Volume.step]⟩

theorem takesEffect_iff : a.takesEffect = true ↔ a.document.size + 4 ≤ a.count := by
  rw [Attempt.takesEffect, decide_eq_true_eq, Attempt.steps, length_stepsOf]

/-- Without a crash an attempt leaves the files as a save does that came so far. -/
theorem disk_attempt (h : a.crash = none) :
    (v.attempt a).disk = v.disk.save a.snapshot a.progress := by
  have hsame : v.attempt a = (a.steps.take a.count).foldl Volume.step v := by
    rw [Volume.attempt, h]
  have heffect := @takesEffect_iff a
  unfold Attempt.progress
  rw [hsame]
  rcases foldl_take_cases v a.document a.count with ⟨hn, heq⟩ | ⟨hn, hcut, synced, heq⟩ | ⟨hn, heq⟩
  · rw [if_pos hn]
    exact congrArg Volume.disk heq
  · rw [if_neg (by omega), if_neg (by rw [heffect]; omega)]
    exact congrArg Volume.disk heq
  · rw [if_neg (by omega), if_pos (heffect.2 hn)]
    exact congrArg Volume.disk heq

/-- Only a save that takes effect changes the snapshot file, and then all of it is synced. -/
theorem current_attempt {o : Option ByteArray} (h : v.current = o.map (⟨·, true⟩)) :
    (v.attempt a).current =
      (if a.takesEffect then some a.document else o).map (⟨·, true⟩) := by
  have hsteps : ((a.steps.take a.count).foldl Volume.step v).current =
      (if a.takesEffect then some a.document else o).map (⟨·, true⟩) := by
    have heffect := @takesEffect_iff a
    unfold Attempt.steps
    rcases foldl_take_cases v a.document a.count with ⟨hn, heq⟩ | ⟨-, hcut, synced, heq⟩ | ⟨hn, heq⟩
    · rw [heq, if_neg (by rw [heffect]; omega), h]
    · rw [heq, if_neg (by rw [heffect]; omega), h]
    · rw [heq, if_pos (heffect.2 hn)]
      rfl
  unfold Volume.attempt
  dsimp only
  split
  · exact hsteps
  · rename_i left _
    rw [Volume.crash, hsteps, Option.map_map]
    rfl

end Steps

/-! ## Every sequence of attempts -/

theorem lastSaved_cons (a : Attempt) (rest : List Attempt) :
    lastSaved (a :: rest) =
      (lastSaved rest).or (if a.takesEffect then some a.snapshot else none) := by
  unfold lastSaved
  by_cases h : a.takesEffect = true
  · rw [List.filter_cons_of_pos h, List.getLast?_cons, if_pos h]
    cases (rest.filter Attempt.takesEffect).getLast? <;> rfl
  · rw [List.filter_cons_of_neg h, if_neg h, Option.or_none]

theorem current_attempts (attempts : List Attempt) {v : Volume} {o : Option ByteArray}
    (h : v.current = o.map (⟨·, true⟩)) :
    (attempts.foldl Volume.attempt v).current =
      (((lastSaved attempts).map fun s => s.toText.toUTF8).or o).map (⟨·, true⟩) := by
  -- Between two attempts the snapshot file is absent or synced, so a crash cannot harm it.
  induction attempts generalizing v o with
  | nil => exact h
  | cons a rest ih =>
    rw [List.foldl_cons, ih (current_attempt h), lastSaved_cons]
    by_cases heffect : a.takesEffect = true
    · rw [if_pos heffect, if_pos heffect]
      cases lastSaved rest <;> rfl
    · rw [if_neg heffect, if_neg heffect, Option.or_none]

/-- The snapshot file has the document of the last save that took effect, and nothing else. -/
theorem content_attempts (attempts : List Attempt) {v : Volume} (h : v.current = none) :
    (attempts.foldl Volume.attempt v).disk.current =
      (lastSaved attempts).map fun s => s.toText.toUTF8 := by
  have hcurrent := current_attempts attempts (o := none) h
  rw [Volume.disk, hcurrent, Option.or_none, Option.map_map]
  exact Option.map_id'

/-- From a document a snapshot is read with each of its numbers as the decimal of it is read. -/
theorem decodeText_toText {s : Snapshot} {g : Float → Float} (h : s.Writable)
    (hread : ∀ f ∈ s.numbers, (decimalOf f).toFloat? = some (g f)) :
    decodeText Snapshot s.toText = .ok (s.mapNumbers g) :=
  (decodeText_of_ofText? (ofText?_pretty (writable s))).trans
    (Json.decode_of_tells (tells_mapNumbers h hread))

/-- What is found on a disk after saves, whatever became of each of them. -/
structure Survives (attempts : List Attempt) (d : Disk) : Prop where
  /-- The file is whole and the newest, and it is not there if no save took effect. -/
  content : d.current = (lastSaved attempts).map fun s => s.toText.toUTF8
  nothing : lastSaved attempts = none → load d.entry = .ok none
  read : ∀ s, lastSaved attempts = some s → s.Writable → s.version ≤ currentVersion →
    ∀ g : Float → Float, (∀ f ∈ s.numbers, (decimalOf f).toFloat? = some (g f)) →
      load d.entry = .ok (some (s.mapNumbers g))
  exactly : ∀ s, lastSaved attempts = some s → s.Writable → s.version ≤ currentVersion →
    s.ReadsNumbers → load d.entry = .ok (some s)
  newer : ∀ s, lastSaved attempts = some s → s.Writable → currentVersion < s.version →
    s.ReadsNumbers → load d.entry = .error (.unsupportedVersion s.version)

/-- However many saves there are, and wherever each of them ends, the last that took effect is what
is loaded. -/
theorem last_save_survives (attempts : List Attempt) {v : Volume} (h : v.current = none) :
    Survives attempts (attempts.foldl Volume.attempt v).disk := by
  have hcontent := content_attempts attempts h
  have hentry : ∀ s, lastSaved attempts = some s →
      (attempts.foldl Volume.attempt v).disk.entry = .file s.toText.toUTF8 := by
    intro s hs
    rw [Disk.entry, hcontent, hs]
    rfl
  constructor
  case content => exact hcontent
  case nothing =>
    intro hnone
    rw [Disk.entry, hcontent, hnone]
    rfl
  case read =>
    intro s hs hwritable hversion g hread
    rw [hentry s hs]
    exact load_toUTF8 (decodeText_toText hwritable hread) hversion
  case exactly =>
    intro s hs hwritable hversion hread
    rw [hentry s hs]
    exact load_toUTF8 (roundTrips hwritable hread).pretty hversion
  case newer =>
    intro s hs hwritable hversion hread
    rw [hentry s hs]
    exact load_toUTF8_of_newer (roundTrips hwritable hread).pretty hversion

def Attempt.done (s : Snapshot) : Attempt := ⟨s, s.toText.toUTF8.size + 4, none⟩

theorem takesEffect_done (s : Snapshot) : (Attempt.done s).takesEffect = true := by
  rw [takesEffect_iff]
  exact Nat.le_refl _

/-- A save is done, and the next one is cut off by a crash that leaves nothing of the second
file. -/
theorem last_save_survives_crash :
    let attempts := [Attempt.done (sample 0.5), ⟨sample 0.25, 3, some fun _ => .empty⟩]
    let v : Volume := { temporary := some ⟨"\x7b".toUTF8, true⟩ }
    v.current = none ∧ lastSaved attempts = some (sample 0.5) ∧
      load (attempts.foldl Volume.attempt v).disk.entry = .ok (some (sample 0.5)) := by
  have hcut : (⟨sample 0.25, 3, some fun _ => .empty⟩ : Attempt).takesEffect = false := by
    rw [← Bool.not_eq_true, takesEffect_iff, Nat.not_le]
    exact Nat.lt_of_lt_of_le (by decide) (Nat.le_add_left 4 _)
  have hlast : lastSaved [Attempt.done (sample 0.5), ⟨sample 0.25, 3, some fun _ => .empty⟩] =
      some (sample 0.5) := by
    rw [lastSaved_cons, lastSaved_cons, hcut, takesEffect_done]
    rfl
  have hread : (sample 0.5).ReadsNumbers := by
    intro f hf
    obtain rfl := List.mem_singleton.1 hf
    decide +kernel
  exact ⟨rfl, hlast, (last_save_survives _ rfl).exactly _ hlast (writable_sample (by decide +kernel))
    (by decide) hread⟩

theorem lastSaved_done (s : Snapshot) : lastSaved [Attempt.done s] = some s := by
  rw [lastSaved_cons, takesEffect_done]
  rfl

theorem entry_done (s : Snapshot) :
    ([Attempt.done s].foldl Volume.attempt {}).disk.entry = .file s.toText.toUTF8 := by
  have hcontent := content_attempts [Attempt.done s] (v := {}) rfl
  rw [Disk.entry, hcontent, lastSaved_done]
  rfl

/-- A progress of sixteen digits is loaded as the next number, and a snapshot of a version that is
not known is not loaded at all. -/
theorem not_load_of_finite :
    (¬ ∀ (attempts : List Attempt) (v : Volume), v.current = none →
      (∀ a ∈ attempts, a.snapshot.Writable ∧ a.snapshot.version ≤ currentVersion) →
      load (attempts.foldl Volume.attempt v).disk.entry = .ok (lastSaved attempts)) ∧
    ¬ ∀ (attempts : List Attempt) (v : Volume), v.current = none →
      (∀ a ∈ attempts, a.snapshot.Writable ∧ a.snapshot.ReadsNumbers) →
      load (attempts.foldl Volume.attempt v).disk.entry = .ok (lastSaved attempts) := by
  constructor
  · intro h
    let s := sample 0.9452706955539223
    let next : Float := 0.9452706955539224
    have hwritable : s.Writable := writable_sample (by decide +kernel)
    have hversion : s.version ≤ currentVersion := by decide
    have hread : ∀ f ∈ s.numbers, (decimalOf f).toFloat? = some next := by
      intro f hf
      obtain rfl := List.mem_singleton.1 hf
      decide +kernel
    have hload := h [Attempt.done s] {} rfl fun a ha => by
      rw [List.mem_singleton.1 ha]
      exact ⟨hwritable, hversion⟩
    have htext := decodeText_toText (g := fun _ => next) hwritable hread
    rw [entry_done, lastSaved_done, load_toUTF8 htext hversion] at hload
    have hsame : (s.mapNumbers fun _ => next).numbers = s.numbers :=
      congrArg numbers (Option.some.inj (Except.ok.inj hload))
    exact absurd (List.head_eq_of_cons_eq hsame) (by decide +kernel)
  · intro h
    let s : Snapshot := { sample 0.5 with version := 2 }
    have hwritable : s.Writable :=
      have hsample := writable_sample (by decide +kernel)
      ⟨hsample.words, hsample.instants, hsample.numbers⟩
    have hread : s.ReadsNumbers := by
      intro f hf
      obtain rfl := List.mem_singleton.1 hf
      decide +kernel
    have hload := h [Attempt.done s] {} rfl fun a ha => by
      rw [List.mem_singleton.1 ha]
      exact ⟨hwritable, hread⟩
    have htext : decodeText Snapshot s.toText = .ok s := (roundTrips hwritable hread).pretty
    have hversion : currentVersion < s.version := by decide
    rw [entry_done, load_toUTF8_of_newer htext hversion] at hload
    cases hload

end BuildPool.Snapshot
