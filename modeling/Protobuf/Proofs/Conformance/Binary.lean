import Protobuf.Conformance.Schema
import Protobuf.Proofs.Binary.Reencoding

/-! # The messages of the suite on the wire

What holds on the wire of the messages of any well-formed schema, for those that the
suite exchanges and tests, and what happens at the limit of nesting.

* `wellFormed_schema`: the types of the suite are well-formed.
* `decode_encode_schema`: what was written is read back, up to a hundred readers deep.
* `decode_encode_nest_ne`: an entry at the limit that leaves out its value is not read back.
-/

namespace Protobuf

namespace TestMessage

/-- In every message type of the suite each field has a number of its own. -/
theorem wellFormed_schema : schema.WellFormed := by
  intro r
  cases r <;> decide

/-! ## Messages in messages -/

/-- The message that holds itself so many times, and in the innermost a map with one entry
    for a message of which nothing is set. -/
def nest : Nat → Message
  | 0 => Message.only schema allTypes 54 (.map [(.text "", .message (schema nested).default)])
  | n + 1 => Message.only schema allTypes 19 (.optional (some (.message (nest n))))

def sunk : Nat → Bytes → Bytes
  | 0, bytes => bytes
  | n + 1, bytes => keyed 27 .delimited (delimit (sunk n bytes))

theorem slot_map : (schema allTypes).slots[54]? =
    some (mapping "map_string_nested_message" 71 .string (.message nested)) := by
  decide

theorem slot_recursive : (schema allTypes).slots[19]? =
    some (submessage "recursive_message" 27 allTypes) := by
  decide

theorem hasType_nest (n : Nat) : Message.HasType schema allTypes (nest n) := by
  induction n with
  | zero =>
    refine Message.hasType_only slot_map (.map (by simp [MapEntries.Sorted]) ?_ ?_)
    · intro e he
      exact ⟨"", by rw [List.mem_singleton.1 he]; rfl⟩
    · intro e he
      rw [List.mem_singleton.1 he]
      exact .message (Message.hasType_default schema nested)
  | succ n ih => exact Message.hasType_only slot_recursive (.present (.message ih))

theorem depth_nest (n : Nat) : Message.depth (nest n) = n + 2 := by
  induction n with
  | zero =>
    rw [nest, Message.depth_only slot_map, Slot.depth, entriesDepth, Value.depth_message,
      MessageType.default, Message.depth, slotsDepth_default]
    rfl
  | succ n ih =>
    rw [nest, Message.depth_only slot_recursive, Slot.depth, Value.depth_message, ih]

theorem encode_nest (n : Nat) :
    Message.encode schema allTypes (nest n) = sunk n (Message.encode schema allTypes (nest 0)) := by
  induction n with
  | zero => rfl
  | succ n ih =>
    have hslot : Message.encode schema allTypes (nest (n + 1)) =
        keyed 27 .delimited (delimit (Message.encode schema allTypes (nest n))) := by
      rw [nest, Message.encode_only slot_recursive]
      simp [submessage, Slot.emissions, Value.emission, Value.wireType, field,
        Value.payload_message]
    rw [hslot, ih, sunk]

theorem length_sunk_le (n : Nat) (bytes : Bytes) (h : bytes.length + 20 * n < 2 ^ 64) :
    (sunk n bytes).length ≤ bytes.length + 20 * n := by
  induction n with
  | zero => exact Nat.le_refl _
  | succ n ih =>
    have hle := ih (by omega)
    have hone := Record.length_keyed_delimit_le (show IsFieldNumber 27 by decide)
      (show (sunk n bytes).Addressable from Nat.lt_of_le_of_lt hle (by omega))
    rw [sunk]
    omega

theorem encode_nest_zero :
    Message.encode schema allTypes (nest 0) = [186, 4, 4, 10, 0, 18, 0] := by
  have hempty : Message.encode schema nested (schema nested).default = [] := by
    rw [← Message.only_default (S := schema) (r := nested) (i := 0) rfl,
      Message.encode_only (i := 0) rfl]
    rfl
  rw [nest, Message.encode_only slot_map]
  simp only [mapping, Slot.emissions, List.map_cons, List.map_nil, entryEmission, entryBytes, field,
    Value.payload_message, hempty, Value.wireType, List.flatten_cons, List.flatten_nil]
  decide

theorem addressable_encode_nest {n : Nat} (h : n ≤ 100) :
    (Message.encode schema allTypes (nest n)).Addressable := by
  rw [encode_nest, encode_nest_zero]
  have hle := length_sunk_le n [186, 4, 4, 10, 0, 18, 0]
    (by simp only [List.length_cons, List.length_nil]; omega)
  simp only [List.length_cons, List.length_nil] at hle
  unfold Bytes.Addressable
  omega

/-- A message of the suite that was written is read back as it was if it takes at most a
    hundred readers, and else fails for being nested too deeply.  That a machine can hold
    the bytes is what their owner promises: no buffer is longer. -/
theorem decode_encode_schema {r : TestMessage} {m : Message} (typed : Message.HasType schema r m)
    (fits : (Message.encode schema r m).Addressable) :
    Message.decode schema r (Message.encode schema r m) =
      if Message.depth m ≤ 100 then .ok m else .error (.nestingLimit 100) :=
  Message.decode_encode_eq wellFormed_schema typed fits

theorem decode_encode_schema_nest :
    Message.decode schema allTypes (Message.encode schema allTypes (nest 98)) = .ok (nest 98) ∧
      Message.decode schema allTypes (Message.encode schema allTypes (nest 99)) =
        .error (.nestingLimit 100) := by
  constructor
  · rw [decode_encode_schema (hasType_nest 98) (addressable_encode_nest (by decide)), depth_nest,
      if_pos (by decide)]
  · rw [decode_encode_schema (hasType_nest 99) (addressable_encode_nest (by decide)), depth_nest,
      if_neg (by decide)]

/-! ## Re-encoding -/

/-- An entry of the innermost map that leaves out its key and its value. -/
def omitted : Bytes := keyed 71 .delimited (delimit [])

theorem addressable_sunk_omitted {n : Nat} (h : n ≤ 100) : (sunk n omitted).Addressable := by
  -- Each message outside adds at most twenty bytes.
  have hlength : omitted.length = 3 := by decide
  have hle := length_sunk_le n omitted (by omega)
  unfold Bytes.Addressable
  omega

theorem forEach_sunk_omitted {n levels : Nat} (hn : n ≤ 100) (h : n + 1 ≤ levels) :
    Record.forEach
      (fun rec m => mergeRecord schema (nestedWithin schema levels) rec (schema allTypes).slots m)
      (sunk n omitted) (schema allTypes).default = (.ok (), nest n) := by
  induction n generalizing levels with
  | zero =>
    -- The entry says nothing, so its value is the default, for which no reader is opened.
    obtain ⟨levels, rfl⟩ : ∃ l, levels = l + 1 := ⟨levels - 1, by omega⟩
    have hspelled := Record.spelled_delimited (show IsFieldNumber 71 by decide)
      (show Bytes.Addressable [] by decide)
    rw [sunk, omitted, ← List.append_nil (keyed _ _ _), Record.forEach_append hspelled,
      ← Message.only_default slot_map,
      mergeRecord_only (wellFormed_schema allTypes) slot_map (by decide)]
    simp only [mapping, SlotType.default, Slot.mergeRecord, Record.content_self,
      nestedWithin_succ_entry, Record.forEach_nil]
    rfl
  | succ n ih =>
    -- One reader for the message outside, and the rest for what is in it.
    obtain ⟨levels, rfl⟩ : ∃ l, levels = l + 1 := ⟨levels - 1, by omega⟩
    have hspelled := Record.spelled_delimited (show IsFieldNumber 27 by decide)
      (addressable_sunk_omitted (n := n) (by omega))
    have hinner := @ih levels (by omega) (by omega)
    rw [sunk, ← List.append_nil (keyed _ _ _), Record.forEach_append hspelled,
      ← Message.only_default slot_recursive,
      mergeRecord_only (wellFormed_schema allTypes) slot_recursive (List.mem_singleton_self 27)]
    simp only [submessage, SlotType.default, Slot.mergeRecord, field, Nested.onto,
      Nested.mergeRecord, Record.content_self, Value.messageOr, nestedWithin_succ_merge, hinner,
      Record.forEach_nil]
    rfl

theorem decode_sunk_omitted {n : Nat} (h : n + 1 ≤ nestingLimit) :
    Message.decode schema allTypes (sunk n omitted) = .ok (nest n) := by
  have hlimit : n ≤ 100 := Nat.le_of_succ_le h
  rw [Message.decode, Message.mergeBytes, forEach_sunk_omitted hlimit h]

theorem decode_encode_of_decode_sunk :
    Message.decode schema allTypes (Message.encode schema allTypes (nest 98)) = .ok (nest 98) :=
  (Message.decode_encode_of_decode wellFormed_schema (decode_sunk_omitted (by decide))
    (addressable_encode_nest (by decide))).1 fun hpath =>
      absurd hpath.lt_depth (by rw [depth_nest]; decide)

/-- What was read is not read back: the value of the innermost entry is now written. -/
theorem decode_encode_nest_ne :
    Message.decode schema allTypes (sunk 99 omitted) = .ok (nest 99) ∧
      Message.decode schema allTypes (Message.encode schema allTypes (nest 99)) =
        .error (.nestingLimit 100) := by
  refine ⟨decode_sunk_omitted (by decide), ?_⟩
  rw [Message.decode_encode_eq wellFormed_schema (hasType_nest 99)
    (addressable_encode_nest (by decide)), depth_nest]
  exact if_neg (by decide)

end TestMessage

end Protobuf
