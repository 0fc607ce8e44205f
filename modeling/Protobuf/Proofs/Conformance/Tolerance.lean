import Protobuf.Proofs.Binary.Unknown
import Protobuf.Proofs.Conformance.Json
import Protobuf.Proofs.Json.Conflicts

/-! # What readers tolerate

Readers take what newer writers add, and in JSON what other writers spell differently.

* `Message.decode_of_extended`: records for fields that are not declared.
* `namesApart_schema`: no two fields of a message of the suite share a name.
* `Message.mergeJson_tolerance`: members that make no difference, and those that
  contradict each other.
* `Cap.mergeJson_renamed`: a name of two fields.
-/

namespace Protobuf

variable {Ref : Type} {S : Schema Ref}

/-- A message is decoded as before from bytes that have, between any two of its records or
    those of a payload that is read with it, a record more for a field that is not declared
    there. -/
theorem Message.decode_of_extended {r : Ref} {bytes bytes' : Bytes} {m : Message}
    (hread : decode S r bytes = .ok m) (h : Extended S (.message r) bytes bytes') :
    decode S r bytes' = .ok m := by
  rw [decode] at hread ⊢
  split at hread
  · rename_i hmerge
    cases hread
    rw [h.mergeBytes hmerge]
  · cases hread

namespace TestMessage

def pocket (value : Bytes) : Bytes :=
  keyed 71 .delimited (delimit ([10, 0] ++ keyed 2 .delimited (delimit value)))

theorem decode_pocket : Message.decode schema allTypes (pocket []) = .ok (nest 0) := by
  have hpocket : pocket [] = Message.encode schema allTypes (nest 0) := by
    rw [encode_nest_zero]
    decide
  rw [hpocket, Message.decode_encode_eq wellFormed_schema (hasType_nest 0)
    (addressable_encode_nest (by decide)), depth_nest, if_pos (by decide)]

theorem extended_pocket :
    Extended schema (.message allTypes) (pocket []) (pocket (keyed 500 .varint [5])) := by
  have five : Varint.Spells [5] 5 := ⟨.last (by decide), by decide, by decide⟩
  have unknown : Record.Formed (keyed 500 .varint [5]) ⟨500, .varint, .ok (5 : UInt64)⟩ :=
    Record.formed_keyed (by decide) (.varint five)
  have empty : Record.Formed (keyed 1 .delimited (delimit [])) (.delimited 1 []) :=
    Record.formed_delimited (by decide) (by decide)
  have key : Record.Series [10, 0] := .cons empty .nil
  have formed : ∀ content : Bytes, content.Addressable →
      Record.Formed (keyed 2 .delimited (delimit content)) (.delimited 2 content) :=
    fun _ => Record.formed_delimited (by decide)
  have value : Extended schema (.message nested) [] (keyed 500 .varint [5]) := by
    simpa using Extended.here (c := .message nested) [] .nil unknown (by decide)
  have entry : Extended schema (.entry .string (.message nested))
      ([10, 0] ++ keyed 2 .delimited (delimit []))
      ([10, 0] ++ keyed 2 .delimited (delimit (keyed 500 .varint [5]))) := by
    simpa using Extended.inside [] key rfl (formed [] (by decide))
      (formed (keyed 500 .varint [5]) (by decide)) value
  simpa [pocket] using Extended.inside (S := schema) (c := .message allTypes) [] .nil
    (show (Content.message allTypes).inside? schema 71 = some _ from rfl)
    (Record.formed_delimited (by decide) (by decide))
    (Record.formed_delimited (by decide) (by decide)) entry

theorem decode_of_extended_pocket :
    Message.decode schema allTypes (pocket (keyed 500 .varint [5])) = .ok (nest 0) :=
  Message.decode_of_extended decode_pocket extended_pocket

end TestMessage

/-! ## Objects -/

/-- A JSON value without repeated keys is merged like the same value with an edit of one of
    the objects in it that say what is in a message: a field under its other name, if neither name
    is one of another field, a member more that is `null` or that no field claims, or the members in
    another order.  And it cannot be merged if one of these objects gives a field under both of
    its names or a oneof two members. -/
theorem Message.mergeJson_tolerance {r : Ref} {v : Json} (distinct : v.HasDistinctKeys) :
    (∀ v', Json.Edited S r v v' →
      mergeJson S r v' (S r).default = mergeJson S r v (S r).default) ∧
    ∀ q ms, Json.MessageIn S r v q ms → (S q).Conflict ms →
      ∃ e, (mergeJson S r v (S r).default).1 = .error e :=
  ⟨fun _ edited => (edited.mergeInto distinct _).symm,
    fun _ _ within conflict => within.fails distinct conflict⟩

namespace Cap

def renamed (key : String) : Json := .object [(key, .ofInt 7)]

/-- Both names of the second size are names of it, but only the first is read for both sizes. -/
theorem mergeJson_renamed :
    (size "hat_size" 2).HasName "hatSize" ∧ (size "hat_size" 2).HasName "hat_size" ∧
      (renamed "hatSize").HasDistinctKeys ∧
      Message.mergeJson capSizes () (renamed "hatSize") (capSizes ()).default = (.ok (), capOf 7 7) ∧
      Message.mergeJson capSizes () (renamed "hat_size") (capSizes ()).default = (.ok (), capOf 0 7) ∧
      capOf 7 7 ≠ capOf 0 7 := by
  refine ⟨by decide, by decide, .object (by simp) ?_, by cbv, by cbv, ?_⟩
  · simp only [List.forall_mem_cons, List.not_mem_nil, false_implies, implies_true, and_true]
    exact .number _
  · exact fun h => absurd (capOf_inj h).1 (by decide)

end Cap

namespace TestMessage

theorem nodup_nameCode_allTypes :
    (((schema allTypes).slots.flatMap SlotType.names).map fun a => nameCode a.2).Nodup := by
  decide

/-- In every message type of the suite each name is that of one field. -/
theorem namesApart_schema (r : TestMessage) : (schema r).NamesApart := by
  cases r with
  | allTypes =>
    have hproto := List.pairwise_map.1 nodup_nameCode_allTypes
    exact (toldApart_schema allTypes).fields.and
      (hproto.imp fun h => ne_of_apply_ne nameCode h)
  | _ => decide

def shelved (key : String) (hat : Json) : Json := .object [(key, .object [("7", hat)])]

def threeInches (others : Json.Members) : Json := .object (("inches", .ofInt 3) :: others)

theorem hasDistinctKeys_shelved : (shelved "byId" (threeInches [])).HasDistinctKeys := by
  refine .object (by simp) ?_
  simp only [List.forall_mem_cons, List.not_mem_nil, false_implies, implies_true, and_true]
  refine .object (by simp) ?_
  simp only [List.forall_mem_cons, List.not_mem_nil, false_implies, implies_true, and_true]
  refine .object (by simp) ?_
  simp only [List.forall_mem_cons, List.not_mem_nil, false_implies, implies_true, and_true]
  exact .number _

theorem names_byId {key : String} (h : (field "by_id" 6 (FieldType.message hat)).HasName key) :
    (schema wardrobe).Names key (mapping "by_id" 6 .int32 (.message hat))
      (field "by_id" 6 (.message hat)) :=
  (namesApart_schema wardrobe).names (List.mem_of_getElem? (i := 5) rfl) List.mem_cons_self h

theorem edited_brim : Json.Edited schema wardrobe (shelved "byId" (threeInches []))
    (shelved "byId" (threeInches [("brim", .string "wide")])) :=
  .inside [] [] (names_byId (.inl (by decide))) rfl (.entry [] "7" [])
    (.here (.unknown [("inches", .ofInt 3)] [] _ (by decide)
      (by decide)))

theorem edited_byId : Json.Edited schema wardrobe (shelved "byId" (threeInches []))
    (shelved "by_id" (threeInches [])) :=
  .here (.rename [] [] (names_byId (.inl (by decide)))
    (names_byId (.inr (by decide))) (by decide))

def doubled : Json.Members := [("recursiveMessage", .object []), ("recursive_message", .object [])]

theorem hasDistinctKeys_doubled :
    (Json.object [("recursiveMessage", .object doubled)]).HasDistinctKeys := by
  refine .object (by simp) ?_
  simp only [List.forall_mem_cons, List.not_mem_nil, false_implies, implies_true, and_true]
  refine .object (by simp [doubled]) ?_
  simp only [doubled, List.forall_mem_cons, List.not_mem_nil, false_implies, implies_true, and_true]
  exact ⟨.object (by simp) (by simp), .object (by simp) (by simp)⟩

theorem messageIn_doubled : Json.MessageIn schema allTypes
    (.object [("recursiveMessage", .object doubled)]) allTypes doubled :=
  .inside [] [] (List.mem_of_getElem? slot_recursive) List.mem_cons_self
    (.inl (by decide)) rfl .self (.self allTypes doubled)

theorem conflict_doubled : (schema allTypes).Conflict doubled :=
  .names (List.mem_of_getElem? slot_recursive) List.mem_cons_self (by decide)
    (by decide) (by decide)

theorem mergeJson_tolerance_shelved :
    (∀ v ∈ [shelved "byId" (threeInches [("brim", .string "wide")]),
        shelved "by_id" (threeInches [])],
      Message.mergeJson schema wardrobe v (schema wardrobe).default =
        Message.mergeJson schema wardrobe (shelved "byId" (threeInches []))
          (schema wardrobe).default) ∧
      ∃ e, (Message.mergeJson schema allTypes (.object [("recursiveMessage", .object doubled)])
        (schema allTypes).default).1 = .error e := by
  constructor
  · simp only [List.forall_mem_cons, List.not_mem_nil, false_implies, implies_true, and_true]
    exact ⟨(Message.mergeJson_tolerance hasDistinctKeys_shelved).1 _ edited_brim,
      (Message.mergeJson_tolerance hasDistinctKeys_shelved).1 _ edited_byId⟩
  · exact (Message.mergeJson_tolerance hasDistinctKeys_doubled).2 _ _ messageIn_doubled
      conflict_doubled

end TestMessage

end Protobuf
