import BuildPool.Proofs.Wire.Builds
import BuildPool.Snapshot.File

/-!
# Documents of snapshots

The fields of snapshots and of what they are made of. A snapshot whose instants and counts can be
written comes back from its document, with each number as its decimal is read; and so it does from
every other document of it.
-/

namespace BuildPool

open BuildPool.Json BuildPool.Json.Field BuildPool.Number BuildPool.Time Relation

/-! ## Workers -/

def WorkerInfo.form : Form WorkerInfo where
  fields := [
    .required "worker_id" WorkerInfo.id,
    .required "address" WorkerInfo.address,
    .required "capacity" WorkerInfo.capacity,
    .withDefault "capabilities" WorkerInfo.capabilities [] tells_noTexts,
    .withDefault "labels" WorkerInfo.labels Catalog.empty tells_noEntries]
  distinct := by decide

instance : Document WorkerInfo := ⟨WorkerInfo.form.Tells, WorkerInfo.form.Edit⟩

theorem WorkerInfo.decode_of_tells {j : Json} {w : WorkerInfo} (h : form.Tells j w) :
    decode j = .ok w := by
  obtain ⟨r, hrecord, hgiven⟩ := Form.record_of_tells h
  simp only [form, List.forall_mem_cons] at hgiven
  obtain ⟨hid, haddress, hcapacity, hcapabilities, hlabels, -⟩ := hgiven
  change record fields j = .ok r at hrecord
  simp only [decode, hrecord, ok_bind, read_required hid, read_required haddress,
    read_required hcapacity, read_withDefault hcapabilities, read_withDefault hlabels]
  rfl

instance : LawfulDocument WorkerInfo :=
  ⟨WorkerInfo.decode_of_tells, Form.tells_of_edit, Form.ne_null_of_edit⟩

instance : Faithful WorkerInfo where
  tells_encode w := WorkerInfo.form.tells_write (by simp [WorkerInfo.form])
  encode_ne_null _ := nofun

instance : Textual WorkerInfo := ⟨WorkerInfo.form.writable_write⟩

def Usage.form : Form Usage where
  fields := [
    .withDefault "cpu_usage" Usage.cpu 0 tells_zero,
    .withDefault "memory_usage" Usage.memory 0 tells_zero]
  distinct := by decide

instance : Document Usage := ⟨Usage.form.Tells, Usage.form.Edit⟩

theorem Usage.decode_of_tells {j : Json} {u : Usage} (h : form.Tells j u) : decode j = .ok u := by
  obtain ⟨r, hrecord, hgiven⟩ := Form.record_of_tells h
  simp only [form, List.forall_mem_cons] at hgiven
  obtain ⟨hcpu, hmemory, -⟩ := hgiven
  change record fields j = .ok r at hrecord
  simp only [decode, hrecord, ok_bind, read_withDefault hcpu, read_withDefault hmemory]
  rfl

instance : LawfulDocument Usage :=
  ⟨Usage.decode_of_tells, Form.tells_of_edit, Form.ne_null_of_edit⟩

instance : Textual Usage := ⟨Usage.form.writable_write⟩

def Usage.mapNumbers (g : Float → Float) (u : Usage) : Usage := ⟨g u.cpu, g u.memory⟩

theorem tells_usage {u : Usage} {g : Float → Float} (hcpu : Tells (encode u.cpu) (g u.cpu))
    (hmemory : Tells (encode u.memory) (g u.memory)) : Tells (encode u) (u.mapNumbers g) :=
  Usage.form.tells_write (by simp [Usage.form, Usage.mapNumbers, hcpu, hmemory])

theorem tells_noUsage : Tells (encode ({} : Usage)) ({} : Usage) :=
  tells_usage (g := id) tells_zero tells_zero

instance : Textual BuildIds := ⟨fun ids => writable ids.toList⟩

instance : Faithful BuildIds where
  tells_encode ids := by
    change (decode (encode ids.toList)).map Catalog.ofList = .ok ids
    rw [decode_of_tells (tells_encode ids.toList), Except.map, Catalog.toList, Catalog.ofList_items]
  encode_ne_null _ := nofun

instance : Faithful WorkerStatus where
  tells_encode s := by cases s <;> rfl
  encode_ne_null _ := nofun

instance : Textual WorkerStatus := ⟨fun _ => trivial⟩

def Worker.form : Form Worker where
  fields := [
    .required "info" Worker.info,
    .required "status" Worker.status,
    .withDefault "active_builds" Worker.active Catalog.empty (tells_encode _),
    .required "last_heartbeat" Worker.lastHeartbeat,
    .required "registered_at" Worker.registeredAt,
    .withDefault "resources" Worker.usage {} tells_noUsage]
  distinct := by decide

instance : Document Worker := ⟨Worker.form.Tells, Worker.form.Edit⟩

theorem Worker.decode_of_tells {j : Json} {w : Worker} (h : form.Tells j w) :
    decode j = .ok w := by
  obtain ⟨r, hrecord, hgiven⟩ := Form.record_of_tells h
  simp only [form, List.forall_mem_cons] at hgiven
  obtain ⟨hinfo, hstatus, hactive, hheartbeat, hregistered, husage, -⟩ := hgiven
  change record fields j = .ok r at hrecord
  simp only [decode, hrecord, ok_bind, read_required hinfo, read_required hstatus,
    read_withDefault hactive, read_required hheartbeat, read_required hregistered,
    read_withDefault husage]
  rfl

instance : LawfulDocument Worker :=
  ⟨Worker.decode_of_tells, Form.tells_of_edit, Form.ne_null_of_edit⟩

instance : Textual Worker := ⟨Worker.form.writable_write⟩

def Worker.instants (w : Worker) : List Instant := [w.lastHeartbeat, w.registeredAt]

def Worker.numbers (w : Worker) : List Float := [w.usage.cpu, w.usage.memory]

def Worker.mapNumbers (g : Float → Float) (w : Worker) : Worker :=
  { w with usage := w.usage.mapNumbers g }

theorem tells_worker {w : Worker} {g : Float → Float} (htimes : ∀ t ∈ w.instants, t.Valid)
    (hnumbers : ∀ f ∈ w.numbers, Tells (encode f) (g f)) : Tells (encode w) (w.mapNumbers g) := by
  simp only [Worker.instants, Worker.numbers, List.forall_mem_cons] at htimes hnumbers
  obtain ⟨hheartbeat, hregistered, -⟩ := htimes
  obtain ⟨hcpu, hmemory, -⟩ := hnumbers
  exact Worker.form.tells_write (by
    simp [Worker.form, Worker.mapNumbers, tells_instant hheartbeat, tells_instant hregistered,
      tells_usage hcpu hmemory])

/-! ## Images -/

def Counters.form : Form Counters where
  fields := [
    .natural "submitted" Counters.submitted UInt64.size (some 0) (by decide),
    .natural "completed" Counters.completed UInt64.size (some 0) (by decide),
    .natural "failed" Counters.failed UInt64.size (some 0) (by decide),
    .natural "cancelled" Counters.cancelled UInt64.size (some 0) (by decide),
    .natural "retried" Counters.retried UInt64.size (some 0) (by decide),
    .natural "cache_hits" Counters.cacheHits UInt64.size (some 0) (by decide)]
  distinct := by decide

instance : Document Counters := ⟨Counters.form.Tells, Counters.form.Edit⟩

theorem Counters.decode_of_tells {j : Json} {c : Counters} (h : form.Tells j c) :
    decode j = .ok c := by
  obtain ⟨r, hrecord, hgiven⟩ := Form.record_of_tells h
  simp only [form, List.forall_mem_cons] at hgiven
  obtain ⟨hsubmitted, hcompleted, hfailed, hcancelled, hretried, hcacheHits, -⟩ := hgiven
  change record fields j = .ok r at hrecord
  simp only [decode, hrecord, ok_bind, read_natural hsubmitted, read_natural hcompleted,
    read_natural hfailed, read_natural hcancelled, read_natural hretried, read_natural hcacheHits]
  rfl

instance : LawfulDocument Counters :=
  ⟨Counters.decode_of_tells, Form.tells_of_edit, Form.ne_null_of_edit⟩

instance : Textual Counters := ⟨Counters.form.writable_write⟩

structure Counters.InWords (c : Counters) : Prop where
  submitted : c.submitted < UInt64.size
  completed : c.completed < UInt64.size
  failed : c.failed < UInt64.size
  cancelled : c.cancelled < UInt64.size
  retried : c.retried < UInt64.size
  cacheHits : c.cacheHits < UInt64.size

instance (c : Counters) : Decidable c.InWords :=
  decidable_of_iff (c.submitted < UInt64.size ∧ c.completed < UInt64.size ∧
      c.failed < UInt64.size ∧ c.cancelled < UInt64.size ∧ c.retried < UInt64.size ∧
      c.cacheHits < UInt64.size)
    ⟨fun ⟨h₁, h₂, h₃, h₄, h₅, h₆⟩ => ⟨h₁, h₂, h₃, h₄, h₅, h₆⟩,
      fun ⟨h₁, h₂, h₃, h₄, h₅, h₆⟩ => ⟨h₁, h₂, h₃, h₄, h₅, h₆⟩⟩

theorem tells_counters {c : Counters} (h : c.InWords) : Tells (encode c) c := by
  refine Counters.form.tells_write ?_
  simp only [Counters.form, List.forall_mem_cons]
  exact ⟨tells_natural h.submitted, tells_natural h.completed, tells_natural h.failed,
    tells_natural h.cancelled, tells_natural h.retried, tells_natural h.cacheHits,
    List.forall_mem_nil _⟩

theorem Counters.inWords_zero : ({} : Counters).InWords := by decide

def Image.form : Form Image where
  fields := [
    .required "builds" Image.builds,
    .withDefault "history" Image.history [] (tells_encode []),
    .natural "next_sequence" Image.nextSequence UInt64.size (some 0) (by decide),
    .withDefault "counters" Image.counters {} (tells_counters Counters.inWords_zero)]
  distinct := by decide

instance : Document Image := ⟨Image.form.Tells, Image.form.Edit⟩

theorem Image.decode_of_tells {j : Json} {i : Image} (h : form.Tells j i) : decode j = .ok i := by
  obtain ⟨r, hrecord, hgiven⟩ := Form.record_of_tells h
  simp only [form, List.forall_mem_cons] at hgiven
  obtain ⟨hbuilds, hhistory, hnext, hcounters, -⟩ := hgiven
  change record fields j = .ok r at hrecord
  simp only [decode, hrecord, ok_bind, read_required hbuilds, read_withDefault hhistory,
    read_natural hnext, read_withDefault hcounters]
  rfl

instance : LawfulDocument Image :=
  ⟨Image.decode_of_tells, Form.tells_of_edit, Form.ne_null_of_edit⟩

instance : Textual Image := ⟨Image.form.writable_write⟩

structure Image.InWords (i : Image) : Prop where
  builds : ∀ b ∈ i.builds, b.InWords
  nextSequence : i.nextSequence < UInt64.size
  counters : i.counters.InWords

instance (i : Image) : Decidable i.InWords :=
  decidable_of_iff
    ((∀ b ∈ i.builds, b.InWords) ∧ i.nextSequence < UInt64.size ∧ i.counters.InWords)
    ⟨fun ⟨h₁, h₂, h₃⟩ => ⟨h₁, h₂, h₃⟩, fun ⟨h₁, h₂, h₃⟩ => ⟨h₁, h₂, h₃⟩⟩

def Image.mapNumbers (g : Float → Float) (i : Image) : Image :=
  { i with builds := i.builds.map (Build.mapNumbers g) }

theorem tells_image {i : Image} {g : Float → Float} (hwords : i.InWords)
    (hbuilds : ∀ b ∈ i.builds, Tells (encode b) (b.mapNumbers g)) :
    Tells (encode i) (i.mapNumbers g) := by
  refine Image.form.tells_write ?_
  simp only [Image.form, List.forall_mem_cons]
  exact ⟨tells_map hbuilds, tells_encode i.history, decodeBelow_encode hwords.nextSequence,
    tells_counters hwords.counters, List.forall_mem_nil _⟩

theorem tells_noBuilds : Tells (encode ({ builds := [] } : Image)) ({ builds := [] } : Image) :=
  tells_image (g := id) ⟨List.forall_mem_nil _, by decide, Counters.inWords_zero⟩
    (List.forall_mem_nil _)

/-! ## Snapshots -/

namespace Snapshot

def form : Form Snapshot where
  fields := [
    .required "version" version,
    .required "saved_at" savedAt,
    .withDefault "builds" image { builds := [] } tells_noBuilds,
    .withDefault "workers" workers [] (tells_list (List.forall_mem_nil _))]
  distinct := by decide

instance : Document Snapshot := ⟨form.Tells, form.Edit⟩

theorem decode_of_tells {j : Json} {s : Snapshot} (h : form.Tells j s) : decode j = .ok s := by
  obtain ⟨r, hrecord, hgiven⟩ := Form.record_of_tells h
  simp only [form, List.forall_mem_cons] at hgiven
  obtain ⟨hversion, hsaved, himage, hworkers, -⟩ := hgiven
  change record fields j = .ok r at hrecord
  simp only [decode, hrecord, ok_bind, read_required hversion, read_required hsaved,
    read_withDefault himage, read_withDefault hworkers]
  rfl

instance : LawfulDocument Snapshot :=
  ⟨decode_of_tells, Form.tells_of_edit, Form.ne_null_of_edit⟩

instance : Textual Snapshot := ⟨form.writable_write⟩

def instants (s : Snapshot) : List Instant :=
  s.savedAt :: (s.image.builds.flatMap Build.instants ++ s.workers.flatMap Worker.instants)

def numbers (s : Snapshot) : List Float :=
  s.image.builds.map Build.progress ++ s.workers.flatMap Worker.numbers

/-- A snapshot of which everything can be written: its counts fit their words, its instants have
dates, and its numbers are finite. -/
structure Writable (s : Snapshot) : Prop where
  words : s.image.InWords
  instants : ∀ t ∈ s.instants, t.Valid
  numbers : ∀ f ∈ s.numbers, f.isFinite = true

/-- The numbers of a snapshot are what their decimals are read as. -/
def ReadsNumbers (s : Snapshot) : Prop := ∀ f ∈ s.numbers, (decimalOf f).toFloat? = some f

instance (s : Snapshot) : Decidable s.ReadsNumbers := List.decidableBAll _ _

/-- The snapshot with another number in place of each of its own. -/
def mapNumbers (g : Float → Float) (s : Snapshot) : Snapshot :=
  { s with image := s.image.mapNumbers g, workers := s.workers.map (Worker.mapNumbers g) }

theorem mapNumbers_id (s : Snapshot) : s.mapNumbers id = s := by
  have hbuild : Build.mapNumbers id = fun b => b := rfl
  have hworker : Worker.mapNumbers id = fun w => w := rfl
  rw [mapNumbers, Image.mapNumbers, hbuild, hworker, List.map_id', List.map_id']

/-- What is written for a snapshot tells it, with each number as its decimal is read. -/
theorem tells_mapNumbers {s : Snapshot} {g : Float → Float} (h : s.Writable)
    (hread : ∀ f ∈ s.numbers, (decimalOf f).toFloat? = some (g f)) :
    Tells (encode s) (s.mapNumbers g) := by
  have hnumbers : ∀ f ∈ s.numbers, Tells (encode f) (g f) := fun f hf =>
    tells_float (h.numbers f hf) (hread f hf)
  have htimes := h.instants
  simp only [instants, numbers, List.forall_mem_cons, List.forall_mem_append, List.forall_mem_map,
    List.forall_mem_flatMap] at hnumbers htimes
  obtain ⟨hsaved, hbuildTimes, hworkerTimes⟩ := htimes
  obtain ⟨hprogress, husages⟩ := hnumbers
  have hbuilds : ∀ b ∈ s.image.builds, Tells (encode b) (b.mapNumbers g) := fun b hb =>
    tells_build (h.words.builds b hb) (hbuildTimes b hb) (hprogress b hb)
  have hworkers : ∀ w ∈ s.workers, Tells (encode w) (w.mapNumbers g) := fun w hw =>
    tells_worker (hworkerTimes w hw) (husages w hw)
  refine form.tells_write ?_
  simp only [form, List.forall_mem_cons]
  exact ⟨tells_encode s.version, tells_instant hsaved, tells_image h.words hbuilds,
    tells_map hworkers, List.forall_mem_nil _⟩

theorem tells {s : Snapshot} (h : s.Writable) (hread : s.ReadsNumbers) : Tells (encode s) s := by
  have htells := tells_mapNumbers (g := id) h hread
  rwa [mapNumbers_id] at htells

theorem roundTrips {s : Snapshot} (h : s.Writable) (hread : s.ReadsNumbers) : RoundTrips s :=
  Json.roundTrips (Json.decode_of_tells (tells h hread))

/-! ## The file -/

theorem fromUTF8?_toUTF8 (text : String) : String.fromUTF8? text.toUTF8 = some text :=
  dif_pos text.isValidUTF8

theorem ofBytes_toUTF8 {text : String} {s : Snapshot} (h : decodeText Snapshot text = .ok s) :
    ofBytes text.toUTF8 =
      if currentVersion < s.version then .error (.unsupportedVersion s.version) else .ok s := by
  simp only [ofBytes, fromUTF8?_toUTF8, pure_bind, h]
  rfl

/-- A text that tells a snapshot of a known version is a file from which it is loaded. -/
theorem load_toUTF8 {text : String} {s : Snapshot} (h : decodeText Snapshot text = .ok s)
    (hversion : s.version ≤ currentVersion) : load (.file text.toUTF8) = .ok (some s) := by
  rw [load, ofBytes_toUTF8 h, if_neg (UInt32.not_lt.2 hversion)]
  rfl

theorem load_toUTF8_of_newer {text : String} {s : Snapshot} (h : decodeText Snapshot text = .ok s)
    (hversion : currentVersion < s.version) :
    load (.file text.toUTF8) = .error (.unsupportedVersion s.version) := by
  rw [load, ofBytes_toUTF8 h, if_pos hversion]
  rfl

/-- A snapshot of a known version is loaded from the file in which it was saved. -/
theorem load_save {s : Snapshot} (h : RoundTrips s) (hversion : s.version ≤ currentVersion)
    (d : Disk) : load (d.save s .done).entry = .ok (some s) :=
  load_toUTF8 h.pretty hversion

end Snapshot

end BuildPool
