import BuildPool.Proofs.Wire.Snapshots
import BuildPool.Wire.Event

/-!
# Documents of events

An event comes back from its document, whichever kind it is of.
-/

namespace BuildPool

open BuildPool.Json BuildPool.Json.Field BuildPool.Time

namespace Event

def time : Event → Instant
  | buildStarted _ _ _ time | buildFinished _ _ _ _ time | workerChanged _ _ time => time

instance : Textual Event where
  writable e := by
    cases e with
    | buildStarted => exact ⟨trivial, trivial, trivial, trivial, trivial, trivial⟩
    | buildFinished build status duration error time =>
      exact ⟨trivial, trivial, trivial, trivial, writable error, trivial, trivial⟩
    | workerChanged => exact ⟨trivial, trivial, trivial, trivial, trivial⟩

theorem isReadable_encode (e : Event) : (encode e).isReadable = true := by
  cases e with
  | buildStarted => rfl
  | buildFinished build status duration error time =>
    have hduration : (Json.int duration.toNat).isReadable = true := by
      have hlt : (duration.toNat : Int).natAbs < UInt64.size := duration.toNat_lt
      simp only [isReadable, hlt, decide_true, Bool.true_or]
    have herror : (encode error : Json).isReadable = true := by cases error <;> rfl
    change ((true && (true && (true && ((Json.int duration.toNat).isReadable &&
      ((encode error : Json).isReadable && (true && true)))))) : Bool) = true
    rw [hduration, herror]
    rfl
  | workerChanged => rfl

theorem depth_encode (e : Event) : (encode e).depth = 1 := by
  cases e with
  | buildStarted => rfl
  | buildFinished build status duration error time => cases error <;> rfl
  | workerChanged => rfl

/-- The members of an event beside its kind. -/
def members : Event → Record
  | buildStarted build worker task time =>
    [("build_id", encode build), ("worker_id", encode worker), ("task", encode task),
      ("timestamp", encode time)]
  | buildFinished build status duration error time =>
    [("build_id", encode build), ("status", encode status), ("duration_ms", encode duration),
      ("error", encode error), ("timestamp", encode time)]
  | workerChanged worker status time =>
    [("worker_id", encode worker), ("status", encode status), ("timestamp", encode time)]

/-- The kind is told by the member for it, and by no other. -/
theorem ofTagged_encode (e : Event) :
    ofTagged (encode e) = ofFields e.kind (.object ((tag, .string e.kind) :: e.members)) := by
  cases e <;> rfl

theorem ofFields_members {e : Event} (h : e.time.Valid) :
    ofFields e.kind (.object ((tag, .string e.kind) :: e.members)) = .ok e := by
  have hstamp : e.members.required "timestamp" = .ok e.time := by
    have htime := decode_of_tells (tells_instant h)
    cases e <;> exact htime
  cases e with
  | buildStarted build worker task time =>
    have hfields : fieldsOf ["build_id", "worker_id", "task", "timestamp"]
        (.object ((tag, .string (kind (.buildStarted build worker task time))) ::
          members (.buildStarted build worker task time))) =
        .ok (members (.buildStarted build worker task time)) := rfl
    simp only [kind, ofFields] at hfields ⊢
    simp only [hfields, ok_bind, hstamp]
    rfl
  | buildFinished build status duration error time =>
    have hfields : fieldsOf ["build_id", "status", "duration_ms", "error", "timestamp"]
        (.object ((tag, .string (kind (.buildFinished build status duration error time))) ::
          members (.buildFinished build status duration error time))) =
        .ok (members (.buildFinished build status duration error time)) := rfl
    have hduration : Record.required (members (.buildFinished build status duration error time))
        "duration_ms" = .ok duration := decode_of_tells (tells_encode duration)
    have herror : Record.optional (members (.buildFinished build status duration error time))
        "error" = .ok error := decode_of_tells (tells_option_encode error)
    have hstatus : Event.status (members (.buildFinished build status duration error time)) =
        .ok status := decode_of_tells (tells_encode status)
    simp only [kind, ofFields] at hfields ⊢
    simp only [hfields, ok_bind, hstamp, hduration, herror, hstatus]
    rfl
  | workerChanged worker status time =>
    have hfields : fieldsOf ["worker_id", "status", "timestamp"]
        (.object ((tag, .string (kind (.workerChanged worker status time))) ::
          members (.workerChanged worker status time))) =
        .ok (members (.workerChanged worker status time)) := rfl
    have hstatus : Event.status (members (.workerChanged worker status time)) =
        .ok status := decode_of_tells (tells_encode status)
    simp only [kind, ofFields] at hfields ⊢
    simp only [hfields, ok_bind, hstamp, hstatus]
    rfl

theorem decode_encode {e : Event} (h : e.time.Valid) : decode (encode e) = .ok e := by
  change (if (encode e).isReadable && decide ((encode e).depth ≤ depthLimit) then
    (ofTagged (encode e)).mapError fun _ => Fault.shape else .error .grammar) = .ok e
  rw [isReadable_encode, depth_encode, if_pos (by decide), ofTagged_encode, ofFields_members h]
  rfl

end Event

end BuildPool
