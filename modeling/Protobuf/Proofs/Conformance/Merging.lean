import Protobuf.Proofs.Binary.Concatenation
import Protobuf.Proofs.Binary.Fieldwise
import Protobuf.Proofs.Conformance.Json

/-! # Merging messages

What merging bytes into a message gives, for the messages of any well-formed schema, with
wardrobes of the suite as cases.

* `Message.mergeBytes_encode_merges`: the bytes of a message merge it field by field.
* `Message.merge_concatenation`: bytes behind others are merged after them, in a message and
  in the payloads of its fields.
-/

namespace Protobuf

variable {Ref : Type} {S : Schema Ref}

/-- The bytes of a message that takes at most a hundred readers are merged into any other of
    its type without fail, and what comes of it is what the rules for each form of field say
    and nothing else. -/
theorem Message.mergeBytes_encode_merges (wf : S.WellFormed) {r : Ref} {old new : Message}
    (hold : HasType S r old) (hnew : HasType S r new) (fits : (encode S r new).Addressable)
    (deep : depth new ≤ 100) :
    ∃ merged, mergeBytes S r (encode S r new) old = (.ok (), merged) ∧
      ∀ m, Merges S r old new m ↔ m = merged :=
  ⟨overlay S r old new, (mergeBytes_encode wf hold hnew fits).ok deep,
    fun _ => merges_iff wf hold hnew⟩

namespace TestMessage

theorem mergeBytes_encode_displaying :
    ∃ merged, Message.mergeBytes schema wardrobe
        (Message.encode schema wardrobe (displaying (13, .message (feltHat 2 "")))) stocked =
          (.ok (), merged) ∧
      ∀ m, Message.Merges schema wardrobe stocked (displaying (13, .message (feltHat 2 ""))) m ↔
        m = merged :=
  Message.mergeBytes_encode_merges wellFormed_schema hasType_stocked (hasType_displaying_hat 2 "")
    addressable_displaying_hat (by rw [depth_displaying_hat]; decide)

end TestMessage

/-! ## Bytes behind bytes -/

/-- Merging bytes behind others that were merged gives what merging them into the message that
    the others led to does, fail or not.  And in a message, with any number `levels` of readers
    left, two records for a message in a field or a oneof are merged as one with both payloads,
    if each payload can be merged. -/
theorem Message.merge_concatenation (wf : S.WellFormed) (q : Ref) :
    (∀ x y m m₁, mergeBytes S q x m = (.ok (), m₁) →
      mergeBytes S q (x ++ y) m = mergeBytes S q y m₁) ∧
    ∀ levels number r t, t ∈ (S q).slots → t.HoldsMessage number r →
      ∀ x y, (nestedWithin S levels).Accepts S r x → (nestedWithin S levels).Accepts S r y →
      ∀ first second both, Record.Spelled first (.delimited number x) →
        Record.Spelled second (.delimited number y) →
        Record.Spelled both (.delimited number (x ++ y)) →
      ∀ m, HasType S q m →
        mergeWithin S levels q (first ++ second) m = mergeWithin S levels q both m := by
  constructor
  · intro x y m m₁ h
    simp only [← mergeWithin_nestingLimit] at h ⊢
    exact mergeWithin_append h y
  · intro levels number r t mem ht x y hx hy first second both hfirst hsecond hboth m typed
    exact mergeWithin_records wf mem ht hx hy hfirst hsecond hboth typed

namespace TestMessage

def mannequin (payload : Bytes) : Bytes := keyed 13 .delimited (delimit payload)

theorem spelled_mannequin {payload : Bytes} (fits : payload.Addressable) :
    Record.Spelled (mannequin payload) (.delimited 13 payload) :=
  Record.spelled_delimited (by decide) fits

theorem merge_concatenation_displaying :
    Message.mergeBytes schema hat ([8, 7] ++ [18]) (schema hat).default =
        Message.mergeBytes schema hat [18]
          (Message.only schema hat 0 (.implicit .int32 (7 : Int32))) ∧
      Message.mergeWithin schema nestingLimit wardrobe (mannequin [8, 7] ++ mannequin [18, 1, 98])
          (displaying (12, .scalar .string "empty")) =
        Message.mergeWithin schema nestingLimit wardrobe (mannequin [8, 7, 18, 1, 98])
          (displaying (12, .scalar .string "empty")) := by
  constructor
  · exact (Message.merge_concatenation wellFormed_schema hat).1 [8, 7] [18] _ _ (by cbv)
  · exact (Message.merge_concatenation wellFormed_schema wardrobe).2 nestingLimit 13 hat _
      (List.mem_of_getElem? slot_display)
      (.member (f := field "mannequin" 13 (.message hat)) (by simp) rfl rfl) [8, 7] [18, 1, 98]
      ⟨(schema hat).default, Message.hasType_default schema hat, by cbv⟩
      ⟨(schema hat).default, Message.hasType_default schema hat, by cbv⟩
      _ _ _ (spelled_mannequin (by decide)) (spelled_mannequin (by decide))
      (spelled_mannequin (by decide)) _ (hasType_displaying_window "empty")

end TestMessage

end Protobuf
