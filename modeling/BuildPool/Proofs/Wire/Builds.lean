import BuildPool.Proofs.Json.Records
import BuildPool.Proofs.Time.Rfc3339
import BuildPool.Wire.Build

/-!
# Documents of builds

The fields of what clients and workers send, and of builds. Requests, reports and tasks come back
whatever they hold; of a build the instants, the counts and the progress have to be such as can be
written.
-/

namespace BuildPool

open BuildPool.Json BuildPool.Json.Field BuildPool.Time

/-! ## Ids, instants, status -/

instance : Faithful BuildId := ⟨fun _ => rfl, nofun⟩
instance : Textual BuildId := ⟨fun _ => trivial⟩

instance : Faithful WorkerId := ⟨fun _ => rfl, nofun⟩
instance : Textual WorkerId := ⟨fun _ => trivial⟩

instance : Textual Instant := ⟨fun _ => trivial⟩

theorem tells_instant {t : Instant} (h : t.Valid) : Tells (encode t) t := by
  change decode (Json.string t.toText) = .ok t
  simp only [decode, ok_bind, ofText?_toText h]

theorem tells_instant? {o : Option Instant} (h : ∀ t ∈ o, t.Valid) : Tells (encode o) o :=
  tells_option fun t ht => ⟨nofun, tells_instant (h t ht)⟩

instance : Faithful BuildStatus where
  tells_encode s := by cases s <;> rfl
  encode_ne_null _ := nofun

instance : Textual BuildStatus := ⟨fun _ => trivial⟩

/-! ## Lists of texts, and defaults -/

instance lawfulDocument_texts : LawfulDocument (List String) := inferInstance

theorem tells_noTexts : Tells (encode ([] : List String)) ([] : List String) := tells_encode []

theorem tells_noEntries : Tells (encode (Catalog.empty : Dictionary)) (Catalog.empty : Dictionary) :=
  tells_encode _

/-! ## Requests -/

def Request.form : Form Request where
  fields := [
    .required "project" Request.project,
    .required "task" Request.task,
    .withDefault "priority" Request.priority 0 (tells_encode 0),
    .withDefault "cache_enabled" Request.cacheEnabled false (tells_encode false),
    .withDefault "options" Request.options Catalog.empty tells_noEntries]
  distinct := by decide

instance : Document Request := ⟨Request.form.Tells, Request.form.Edit⟩

theorem Request.decode_of_tells {j : Json} {q : Request} (h : form.Tells j q) :
    decode j = .ok q := by
  obtain ⟨r, hrecord, hgiven⟩ := Form.record_of_tells h
  simp only [form, List.forall_mem_cons] at hgiven
  obtain ⟨hproject, htask, hpriority, hcache, hoptions, -⟩ := hgiven
  change record fields j = .ok r at hrecord
  simp only [decode, hrecord, ok_bind, read_required hproject, read_required htask,
    read_withDefault hpriority, read_withDefault hcache, read_withDefault hoptions]
  rfl

instance : LawfulDocument Request :=
  ⟨Request.decode_of_tells, Form.tells_of_edit, Form.ne_null_of_edit⟩

instance : Faithful Request where
  tells_encode q := Request.form.tells_write (by simp [Request.form])
  encode_ne_null _ := nofun

instance : Textual Request := ⟨Request.form.writable_write⟩

/-! ## Outcomes and reports -/

def Outcome.form : Form Outcome where
  fields := [
    .required "success" Outcome.success,
    .withDefault "artifacts" Outcome.artifacts [] tells_noTexts,
    .withDefault "error" Outcome.error none rfl,
    .withDefault "duration_ms" Outcome.duration 0 (tells_encode 0)]
  distinct := by decide

instance : Document Outcome := ⟨Outcome.form.Tells, Outcome.form.Edit⟩

theorem Outcome.decode_of_tells {j : Json} {o : Outcome} (h : form.Tells j o) :
    decode j = .ok o := by
  obtain ⟨r, hrecord, hgiven⟩ := Form.record_of_tells h
  simp only [form, List.forall_mem_cons] at hgiven
  obtain ⟨hsuccess, hartifacts, herror, hduration, -⟩ := hgiven
  change record fields j = .ok r at hrecord
  simp only [decode, hrecord, ok_bind, read_required hsuccess, read_withDefault hartifacts,
    Record.optional, read_withDefault herror, read_withDefault hduration]
  rfl

instance : LawfulDocument Outcome :=
  ⟨Outcome.decode_of_tells, Form.tells_of_edit, Form.ne_null_of_edit⟩

instance : Faithful Outcome where
  tells_encode o := Outcome.form.tells_write (by simp [Outcome.form])
  encode_ne_null _ := nofun

instance : Textual Outcome := ⟨Outcome.form.writable_write⟩

def Report.form : Form Report where
  fields := [
    .required "worker_id" Report.worker,
    .required "success" Report.success,
    .withDefault "artifacts" Report.artifacts [] tells_noTexts,
    .withDefault "error" Report.error none rfl,
    .withDefault "duration_ms" Report.duration 0 (tells_encode 0)]
  distinct := by decide

instance : Document Report := ⟨Report.form.Tells, Report.form.Edit⟩

theorem Report.decode_of_tells {j : Json} {o : Report} (h : form.Tells j o) :
    decode j = .ok o := by
  obtain ⟨r, hrecord, hgiven⟩ := Form.record_of_tells h
  simp only [form, List.forall_mem_cons] at hgiven
  obtain ⟨hworker, hsuccess, hartifacts, herror, hduration, -⟩ := hgiven
  change record fields j = .ok r at hrecord
  simp only [decode, hrecord, ok_bind, read_required hworker, read_required hsuccess,
    read_withDefault hartifacts, Record.optional, read_withDefault herror,
    read_withDefault hduration]
  rfl

instance : LawfulDocument Report :=
  ⟨Report.decode_of_tells, Form.tells_of_edit, Form.ne_null_of_edit⟩

instance : Faithful Report where
  tells_encode o := Report.form.tells_write (by simp [Report.form])
  encode_ne_null _ := nofun

instance : Textual Report := ⟨Report.form.writable_write⟩

/-! ## Tasks -/

def Task.form : Form Task where
  fields := [
    .required "build_id" Task.build,
    .required "task" Task.task,
    .required "project" Task.project,
    .required "options" Task.options,
    .required "timeout_secs" Task.timeout]
  distinct := by decide

instance : Document Task := ⟨Task.form.Tells, Task.form.Edit⟩

theorem Task.decode_of_tells {j : Json} {t : Task} (h : form.Tells j t) : decode j = .ok t := by
  obtain ⟨r, hrecord, hgiven⟩ := Form.record_of_tells h
  simp only [form, List.forall_mem_cons] at hgiven
  obtain ⟨hbuild, htask, hproject, hoptions, htimeout, -⟩ := hgiven
  change record fields j = .ok r at hrecord
  simp only [decode, hrecord, ok_bind, read_required hbuild, read_required htask,
    read_required hproject, read_required hoptions, read_required htimeout]
  rfl

instance : LawfulDocument Task :=
  ⟨Task.decode_of_tells, Form.tells_of_edit, Form.ne_null_of_edit⟩

instance : Faithful Task where
  tells_encode t := Task.form.tells_write (by simp [Task.form])
  encode_ne_null _ := nofun

instance : Textual Task := ⟨Task.form.writable_write⟩

/-! ## Builds -/

def Build.form : Form Build where
  fields := [
    .required "id" Build.id,
    .required "project" Build.project,
    .required "task" Build.task,
    .required "priority" Build.priority,
    .required "cache_enabled" Build.cacheEnabled,
    .withDefault "options" Build.options Catalog.empty tells_noEntries,
    .required "submitted_at" Build.submittedAt,
    .natural "sequence" Build.sequence UInt64.size none nofun,
    .required "status" Build.status,
    .withDefault "progress" Build.progress 0 tells_zero,
    .withDefault "worker_id" Build.worker none rfl,
    .natural "retry_count" Build.retries UInt32.size (some 0) (by decide),
    .natural "attempt" Build.attempt UInt32.size (some 0) (by decide),
    .withDefault "started_at" Build.startedAt none rfl,
    .withDefault "finished_at" Build.finishedAt none rfl,
    .withDefault "result" Build.outcome none rfl]
  distinct := by decide

instance : Document Build := ⟨Build.form.Tells, Build.form.Edit⟩

theorem Build.decode_of_tells {j : Json} {b : Build} (h : form.Tells j b) : decode j = .ok b := by
  obtain ⟨r, hrecord, hgiven⟩ := Form.record_of_tells h
  simp only [form, List.forall_mem_cons] at hgiven
  obtain ⟨hid, hproject, htask, hpriority, hcache, hoptions, hsubmitted, hsequence, hstatus,
    hprogress, hworker, hretries, hattempt, hstarted, hfinished, hresult, -⟩ := hgiven
  change record fields j = .ok r at hrecord
  simp only [decode, hrecord, ok_bind, read_required hid, read_required hproject,
    read_required htask, read_required hpriority, read_required hcache, read_withDefault hoptions,
    read_required hsubmitted, read_natural hsequence, read_required hstatus,
    read_withDefault hprogress, Record.optional, read_withDefault hworker, read_natural hretries,
    read_natural hattempt, read_withDefault hstarted, read_withDefault hfinished,
    read_withDefault hresult]
  rfl

instance : LawfulDocument Build :=
  ⟨Build.decode_of_tells, Form.tells_of_edit, Form.ne_null_of_edit⟩

/-- The instants of a build. -/
def Build.instants (b : Build) : List Instant :=
  b.submittedAt :: (b.startedAt.toList ++ b.finishedAt.toList)

/-- The counts of a build fit the words in which they are kept. -/
structure Build.InWords (b : Build) : Prop where
  sequence : b.sequence < UInt64.size
  retries : b.retries < UInt32.size
  attempt : b.attempt < UInt32.size

instance (b : Build) : Decidable b.InWords :=
  decidable_of_iff
    (b.sequence < UInt64.size ∧ b.retries < UInt32.size ∧ b.attempt < UInt32.size)
    ⟨fun ⟨h₁, h₂, h₃⟩ => ⟨h₁, h₂, h₃⟩, fun ⟨h₁, h₂, h₃⟩ => ⟨h₁, h₂, h₃⟩⟩

/-- The build with another number in place of each of its own, of which it has one. -/
def Build.mapNumbers (g : Float → Float) (b : Build) : Build := { b with progress := g b.progress }

theorem tells_build {b : Build} {g : Float → Float} (hwords : b.InWords)
    (htimes : ∀ t ∈ b.instants, t.Valid) (hprogress : Tells (encode b.progress) (g b.progress)) :
    Tells (encode b) (b.mapNumbers g) := by
  have hstarted : ∀ t ∈ b.startedAt, t.Valid := fun t ht =>
    htimes t (by simp [Build.instants, Option.mem_def.1 ht])
  have hfinished : ∀ t ∈ b.finishedAt, t.Valid := fun t ht =>
    htimes t (by simp [Build.instants, Option.mem_def.1 ht])
  refine Build.form.tells_write ?_
  simp only [Build.form, List.forall_mem_cons]
  exact ⟨tells_encode b.id, tells_encode b.project, tells_encode b.task, tells_encode b.priority,
    tells_encode b.cacheEnabled, tells_encode b.options,
    tells_instant (htimes _ List.mem_cons_self), decodeBelow_encode hwords.sequence,
    tells_encode b.status, hprogress, tells_option_encode b.worker,
    decodeBelow_encode hwords.retries, decodeBelow_encode hwords.attempt, tells_instant? hstarted,
    tells_instant? hfinished, tells_option_encode b.outcome, List.forall_mem_nil _⟩

instance : Textual Build := ⟨Build.form.writable_write⟩

end BuildPool
