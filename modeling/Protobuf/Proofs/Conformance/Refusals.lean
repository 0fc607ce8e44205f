import Protobuf.Proofs.Conformance.Json
import Protobuf.Proofs.Json.Refusals

/-! # Messages that JSON cannot say

Only moments and durations without a text keep a message from being written, and none is read,
for the messages of any coherent schema, with messages of the suite as cases.

* `Message.toJson_refusals`: when writing fails or overflows, and with what; what was read can be
  written.
* `TestMessage.toJson_boundless`: a duration that overflows comes before a moment that is refused.
-/

namespace Protobuf

variable {Ref : Type} {S : Schema Ref}

/-- A message is not written if and only if a moment or a duration in it, at any depth, has no
    text, and what comes of it is what comes of the first one: in the order of field numbers, then
    of a list or of the keys of a map, and so on into each message.  That is an error unless the
    first one is a duration that overflows.  A message that was read from JSON text can be
    written again. -/
theorem Message.toJson_refusals (wf : S.Coherent) (shaped : S.WellShaped) (r : Ref) :
    (∀ m, HasType S r m →
      ((∃ e, toJson S r m = .error e) ↔ ∃ path q inner e,
        HoldsAt S r m path q inner ∧ Refuses S q inner e) ∧
      ∀ e, toJson S r m = .error e ↔ ∃ path q inner,
        HoldsAt S r m path q inner ∧ Refuses S q inner e ∧
          ∀ path' q' inner' e', HoldsAt S r m path' q' inner' → Refuses S q' inner' e' →
            path' = path ∨ path.Precedes path') ∧
    (∀ q inner, Refuses S q inner .overflow ↔ (S q).shape = .duration ∧
      (Duration.mk inner.secondsAndNanos.1 inner.secondsAndNanos.2).Overflows) ∧
    ∀ text m, ofJsonText S r text = .ok m → ∃ j, toJson S r m = .ok j := by
  refine ⟨fun m typed => ⟨?_, fun e => ?_⟩, fun _ _ => refuses_overflow_iff,
    fun _ _ => exists_toJson_of_ofJsonText wf shaped⟩
  · have hok := exists_toJson_iff wf shaped typed
    cases hjson : toJson S r m with
    | ok j =>
      rw [hjson] at hok
      refine iff_of_false (by simp) ?_
      rintro ⟨path, q, inner, e, holds, refused⟩
      exact hok.1 ⟨j, rfl⟩ path e ⟨q, inner, holds, refused⟩
    | error e =>
      obtain ⟨path, ⟨q, inner, holds, refused⟩, -⟩ := (toJson_eq_error_iff wf shaped typed).1 hjson
      exact iff_of_true ⟨e, rfl⟩ ⟨path, q, inner, e, holds, refused⟩
  · rw [toJson_eq_error_iff wf shaped typed]
    constructor
    · rintro ⟨path, ⟨q, inner, holds, refused⟩, first⟩
      exact ⟨path, q, inner, holds, refused, fun path' q' inner' e' holds' refused' =>
        first path' e' ⟨q', inner', holds', refused'⟩⟩
    · rintro ⟨path, q, inner, holds, refused, first⟩
      refine ⟨path, ⟨q, inner, holds, refused⟩, ?_⟩
      rintro path' e' ⟨q', inner', holds', refused'⟩
      exact first path' q' inner' e' holds' refused'

namespace TestMessage

/-- A wardrobe that was opened too late, for a time with two signs. -/
def untimely : Message :=
  (Message.only schema wardrobe 11 (.optional (some (.message (span 1 (-1)))))).set 10
    (.optional (some (.message (span 253402300800 5))))

theorem hasType_untimely : Message.HasType schema wardrobe untimely :=
  hasType_set (t := submessage "opened_at" 14 .timestamp)
    (Message.hasType_only (t := submessage "open_for" 15 .duration) rfl
      (.present (.message (hasType_span _ _)))) rfl (.present (.message (hasType_span _ _)))

/-- The moment is refused and so is the span, which has the greater number. -/
theorem toJson_refusals_untimely :
    Message.toJson schema wardrobe untimely =
        .error (.refused (.timestampOutOfRange 253402300800 5)) ∧
      (∃ path q inner, Message.HoldsAt schema wardrobe untimely path q inner ∧
        Message.Refuses schema q inner (.refused (.timestampOutOfRange 253402300800 5)) ∧
          ∀ path' q' inner' e', Message.HoldsAt schema wardrobe untimely path' q' inner' →
            Message.Refuses schema q' inner' e' → path' = path ∨ path.Precedes path') ∧
      ∃ j, Message.toJson schema wardrobe (schema wardrobe).default = .ok j := by
  obtain ⟨written, -, read⟩ :=
    Message.toJson_refusals coherent_schema wellShaped_schema wardrobe
  have hjson : Message.toJson schema wardrobe untimely =
      .error (.refused (.timestampOutOfRange 253402300800 5)) := by
    cbv
  have hempty : Message.ofJsonText schema wardrobe "{}" = .ok (schema wardrobe).default := by
    cbv
  exact ⟨hjson, ((written untimely hasType_untimely).2 _).1 hjson, read "{}" _ hempty⟩

def boundless : Message :=
  (Message.only schema allTypes 58 (.optional (some (.message (span 0 Int32.minValue))))).set 59
    (.optional (some (.message (span 253402300800 0))))

theorem hasType_boundless : Message.HasType schema allTypes boundless :=
  hasType_set (t := submessage "optional_timestamp" 302 .timestamp)
    (Message.hasType_only (t := submessage "optional_duration" 301 .duration) rfl
      (.present (.message (hasType_span _ _)))) rfl (.present (.message (hasType_span _ _)))

/-- The moment is refused, but there is no error: the duration, which has the smaller number and is
    out of range, overflows first. -/
theorem toJson_boundless :
    Message.HasType schema allTypes boundless ∧
      (∃ path inner, Message.HoldsAt schema allTypes boundless path timestamp inner ∧
        Message.Refuses schema timestamp inner (.refused (.timestampOutOfRange 253402300800 0))) ∧
      (∃ path inner, Message.HoldsAt schema allTypes boundless path duration inner ∧
        ¬(Duration.mk inner.secondsAndNanos.1 inner.secondsAndNanos.2).InRange) ∧
      Message.toJson schema allTypes boundless = .error .overflow := by
  have hmoment : ((schema allTypes).slots.zip boundless)[59]? =
      some (submessage "optional_timestamp" 302 .timestamp,
        .optional (some (.message (span 253402300800 0)))) := rfl
  have hspan : ((schema allTypes).slots.zip boundless)[58]? =
      some (submessage "optional_duration" 301 .duration,
        .optional (some (.message (span 0 Int32.minValue)))) := rfl
  refine ⟨hasType_boundless, ?_, ?_, by cbv⟩
  · exact ⟨_, _, .part (List.mem_of_getElem? hmoment) (.optional _ _) (.self timestamp _),
      .moment rfl rfl⟩
  · exact ⟨_, _, .part (List.mem_of_getElem? hspan) (.optional _ _) (.self duration _), by decide⟩

end TestMessage

end Protobuf
