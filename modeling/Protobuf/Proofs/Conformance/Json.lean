import Mathlib
import Protobuf.Proofs.Conformance.Binary
import Protobuf.Proofs.Json.RoundTrip

/-! # Messages in JSON

What was written is read back, for the messages of any type whose fields, and those of the
types that it is made of, are told apart by their names.  Those of the suite are; two fields of
which the JSON names are one are not.

* `Message.mergeJson_toJson`: what was written is read back.
* `toldApart_schema`: in the types of the suite no field shares a name with another.
-/

namespace Protobuf

variable {Ref : Type} {S : Schema Ref}

/-- A message whose moments and durations are in range and whose scalars JSON can say is written
    as a JSON value, and the value, merged into a message of which nothing is set, gives the
    message back, if in each type that it is made of the fields are told apart by their
    names. -/
theorem Message.mergeJson_toJson (wf : S.Coherent) (shaped : S.WellShaped) {r : Ref} {m : Message}
    (apart : ∀ q, S.Reaches r q → (S q).ToldApart) (typed : HasType S r m) (exact : Exact S r m) :
    ∃ v, toJson S r m = .ok v ∧ mergeJson S r v (S r).default = (.ok (), m) :=
  exists_json wf shaped apart typed exact

/-! ## Sizes of caps -/

namespace Cap

def size (name : String) (number : Nat) : Field PlainType :=
  ⟨number, name, lowerCamelCase name, .scalar .int32⟩

theorem wellFormed_capSizes : capSizes.WellFormed := fun r => by cases r; decide

theorem wellShaped_capSizes : capSizes.WellShaped := fun r => by cases r; decide

theorem hasType_capOf (first second : Int32) : Message.HasType capSizes () (capOf first second) :=
  .cons (.implicit (size "hatSize" 1) first) (.cons (.implicit (size "hat_size" 2) second) .nil)

theorem exact_capOf (first second : Int32) : Message.Exact capSizes () (capOf first second) :=
  ⟨trivial, .cons (@Slot.Exact.implicit _ capSizes (size "hatSize" 1) first trivial)
    (.cons (@Slot.Exact.implicit _ capSizes (size "hat_size" 2) second trivial) .nil)⟩

/-- The object of a cap of two sizes has one of them. -/
theorem toJson_capOf : Message.toJson capSizes () (capOf 6 7) = .ok (.object [("hatSize", .ofInt 7)]) := by
  cbv

/-- The second size is written over the first, and read for both. -/
theorem mergeJson_toJson_ne :
    capSizes.WellFormed ∧ capSizes.WellShaped ∧ Message.HasType capSizes () (capOf 6 7) ∧
      Message.Exact capSizes () (capOf 6 7) ∧
      ∃ v, Message.toJson capSizes () (capOf 6 7) = .ok v ∧
        Message.mergeJson capSizes () v (capSizes ()).default = (.ok (), capOf 7 7) ∧
        capOf 7 7 ≠ capOf 6 7 := by
  refine ⟨wellFormed_capSizes, wellShaped_capSizes, hasType_capOf 6 7, exact_capOf 6 7, _, toJson_capOf,
    ?_, ?_⟩
  · cbv
  · exact fun h => absurd (capOf_inj h).1 (by decide)

end Cap

namespace TestMessage

/-! ## Names -/

/-- A name as a number.  Many names are compared faster so than as texts. -/
def nameCode (name : String) : Nat :=
  (Scalar.textBytes name).foldl (fun n b => 256 * n + b.toNat) 0

theorem apart_of_nameCode {a b : String × String}
    (h : nameCode a.1 ≠ nameCode b.1 ∧ nameCode a.1 ≠ nameCode b.2 ∧ nameCode a.2 ≠ nameCode b.1) :
    Apart a b :=
  ⟨ne_of_apply_ne nameCode h.1, ne_of_apply_ne nameCode h.2.1, ne_of_apply_ne nameCode h.2.2⟩

theorem nameCode_allTypes : ((schema allTypes).slots.flatMap SlotType.names).Pairwise fun a b =>
    nameCode a.1 ≠ nameCode b.1 ∧ nameCode a.1 ≠ nameCode b.2 ∧ nameCode a.2 ≠ nameCode b.1 := by
  decide +kernel

/-- In every message type of the suite each field has names of its own. -/
theorem toldApart_schema (r : TestMessage) : (schema r).ToldApart := by
  cases r with
  | allTypes => exact ⟨nameCode_allTypes.imp apart_of_nameCode, by decide +kernel⟩
  | _ => decide +kernel

theorem wellShaped_schema : schema.WellShaped := by
  intro r
  cases r <;> decide

theorem coherent_schema : schema.Coherent := fun r => (wellFormed_schema r).toCoherent

/-! ## A stocked wardrobe -/

section Parts

variable (name : String) (number : Nat) {k : Scalar} {v : k.Carrier}

theorem hasType_implicit (v : k.Carrier) :
    Slot.HasType schema (implicit name number k) (.implicit k v) :=
  .implicit (field name number (.scalar k)) v

theorem exact_implicit (h : k.Exact v) : Slot.Exact schema (implicit name number k) (.implicit k v) :=
  @Slot.Exact.implicit _ schema (field name number (.scalar k)) v h

theorem hasType_scalar (v : k.Carrier) : Value.HasType schema (scalar k) (.scalar k v) :=
  .plain (.scalar k) v

theorem exact_scalar (h : k.Exact v) : Value.Exact schema (scalar k) (.scalar k v) :=
  @Value.Exact.plain _ schema (.scalar k) v h

end Parts

def feltHat (inches : Int32) (color : String) : Message :=
  [.implicit .int32 inches, .implicit .string color, .implicit .string "felt"]

theorem hasType_feltHat (inches : Int32) (color : String) :
    Value.HasType schema (.message hat) (.message (feltHat inches color)) := by
  refine .message (.cons ?_ <| .cons ?_ <| .cons ?_ .nil)
  · exact hasType_implicit (k := .int32) "inches" 1 inches
  · exact hasType_implicit (k := .string) "color" 2 color
  · exact hasType_implicit (k := .string) "name" 3 "felt"

theorem exact_feltHat (inches : Int32) (color : String) :
    Value.Exact schema (.message hat) (.message (feltHat inches color)) := by
  refine .message trivial (.cons ?_ <| .cons ?_ <| .cons ?_ .nil)
  · exact exact_implicit "inches" 1 trivial
  · exact exact_implicit "color" 2 trivial
  · exact exact_implicit "name" 3 trivial

def span (seconds : Int64) (nanos : Int32) : Message := .ofSecondsAndNanos seconds nanos

theorem hasType_span (seconds : Int64) (nanos : Int32) :
    List.Forall₂ (Slot.HasType schema) secondsAndNanos (span seconds nanos) :=
  .cons (hasType_implicit (k := .int64) "seconds" 1 seconds) <|
    .cons (hasType_implicit (k := .int32) "nanos" 2 nanos) .nil

theorem exact_span (seconds : Int64) (nanos : Int32) :
    List.Forall₂ (Slot.Exact schema) secondsAndNanos (span seconds nanos) :=
  .cons (exact_implicit (k := .int64) "seconds" 1 trivial) <|
    .cons (exact_implicit (k := .int32) "nanos" 2 trivial) .nil

/-- A wardrobe with hats in a list, in a map and in a oneof, a style that has no name, the
    first moment that has a text and a negative duration. -/
def stocked : Message :=
  [.repeated [.message (feltHat 7 "blue"), .message (feltHat 0 "")], .repeated [], .repeated [],
    .repeated [.scalar .int32 (99 : Int32)], .map [],
    .map [(.integer (-5), .message (feltHat 7 "red"))], .implicit .int32 (99 : Int32),
    .optional (some (.scalar .string "")), .optional none, .optional none,
    .optional (some (.message (span (-62135596800) 0))),
    .optional (some (.message (span 0 (-500000000)))),
    .oneof (some (13, .message (feltHat 1 "green")))]

theorem hasType_stocked : Message.HasType schema wardrobe stocked := by
  refine .cons (.repeated ?_) <| .cons (.repeated ?_) <| .cons (.repeated ?_) <|
    .cons (.repeated ?_) <| .cons (.map ?_ ?_ ?_) <| .cons (.map ?_ ?_ ?_) <| .cons ?_ <|
    .cons (.present ?_) <| .cons (.absent _) <| .cons (.absent _) <| .cons (.present ?_) <|
    .cons (.present ?_) <| .cons ?_ .nil
  · simp only [List.forall_mem_cons]
    exact ⟨hasType_feltHat 7 "blue", hasType_feltHat 0 "", by simp⟩
  · simp
  · simp
  · simp only [List.forall_mem_cons]
    exact ⟨.plain (.enumeration style) _, by simp⟩
  · simp [MapEntries.Sorted]
  · simp
  · simp
  · simp [MapEntries.Sorted]
  · simp only [List.forall_mem_cons]
    exact ⟨⟨(-5 : Int32), rfl⟩, by simp⟩
  · simp only [List.forall_mem_cons]
    exact ⟨hasType_feltHat 7 "red", by simp⟩
  · exact .implicit (field "favorite" 7 (.enumeration style)) _
  · exact hasType_scalar (k := .string) ""
  · exact .message (hasType_span _ _)
  · exact .message (hasType_span _ _)
  · exact .member (f := field "mannequin" 13 (.message hat)) (by simp) (hasType_feltHat 1 "green")

theorem exact_stocked : Message.Exact schema wardrobe stocked := by
  refine ⟨trivial, .cons (.repeated ?_) <| .cons (.repeated ?_) <| .cons (.repeated ?_) <|
    .cons (.repeated ?_) <| .cons (.map ?_) <| .cons (.map ?_) <| .cons ?_ <|
    .cons (.present ?_) <| .cons (.absent _) <| .cons (.absent _) <| .cons (.present ?_) <|
    .cons (.present ?_) <| .cons (.member ?_) .nil⟩
  · simp only [List.forall_mem_cons]
    exact ⟨exact_feltHat 7 "blue", exact_feltHat 0 "", by simp⟩
  · simp
  · simp
  · simp only [List.forall_mem_cons]
    exact ⟨.plain (t := .enumeration style) trivial, by simp⟩
  · simp
  · simp only [List.forall_mem_cons]
    exact ⟨exact_feltHat 7 "red", by simp⟩
  · exact .implicit (f := field "favorite" 7 (.enumeration style)) trivial
  · exact exact_scalar (k := .string) trivial
  · exact .message (by decide +kernel) (exact_span _ _)
  · exact .message (by decide +kernel) (exact_span _ _)
  · simp only [List.forall_mem_cons]
    exact ⟨fun h => absurd h (by decide), fun h => absurd h (by decide),
      fun _ => exact_feltHat 1 "green", by simp⟩

theorem mergeJson_toJson_stocked :
    ∃ v, Message.toJson schema wardrobe stocked = .ok v ∧
      Message.mergeJson schema wardrobe v (schema wardrobe).default = (.ok (), stocked) :=
  Message.mergeJson_toJson coherent_schema wellShaped_schema (fun q _ => toldApart_schema q)
    hasType_stocked exact_stocked

/-! ## A wardrobe with something on display -/

def displaying (member : Nat × Value) : Message :=
  Message.only schema wardrobe 12 (.oneof (some member))

theorem slot_display : (schema wardrobe).slots[12]? = some (.oneof "display"
    [field "shelf" 11 (scalar .uint32), field "window" 12 (scalar .string),
      field "mannequin" 13 (.message hat)]) :=
  rfl

theorem hasType_displaying_hat (inches : Int32) (color : String) :
    Message.HasType schema wardrobe (displaying (13, .message (feltHat inches color))) :=
  Message.hasType_only slot_display (.member (f := field "mannequin" 13 (.message hat)) (by simp)
    (hasType_feltHat inches color))

theorem hasType_displaying_window (s : String) :
    Message.HasType schema wardrobe (displaying (12, .scalar .string s)) :=
  Message.hasType_only slot_display (.member (f := field "window" 12 (scalar .string)) (by simp)
    (hasType_scalar (k := .string) s))

theorem depth_displaying_hat (inches : Int32) (color : String) :
    Message.depth (displaying (13, .message (feltHat inches color))) = 1 := by
  rw [displaying, Message.depth_only slot_display]
  rfl

theorem addressable_displaying_hat :
    (Message.encode schema wardrobe
      (displaying (13, .message (feltHat 2 "")))).Addressable := by
  cbv

end TestMessage

end Protobuf
