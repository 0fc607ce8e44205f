import Protobuf.Proofs.Json.ScalarForm
import Protobuf.Proofs.Time.Duration
import Protobuf.Proofs.Time.Timestamp
import Protobuf.Schema.JsonMapping

/-! # What JSON can say

Which messages JSON can say, and which schemas can be told apart by names.

* `Value.Exact`, `Slot.Exact`, `Message.Exact`: moments and durations are in range, and
  scalars are exact, at any depth.
* `MessageType.WellShaped`: moments and durations are made of seconds and nanoseconds.
* `MessageType.ToldApart`: no two fields share a name, and neither do two values of an enum.
* `Schema.Reaches`: the types that the messages of a type are made of.
-/

namespace Protobuf

variable {Ref : Type}

/-- Whether a message can be written in a shape: a moment and a duration have a text only
    in their documented range. -/
def JsonShape.Admits : JsonShape → Message → Prop
  | .object, _ => True
  | .timestamp, m => (Timestamp.mk m.secondsAndNanos.1 m.secondsAndNanos.2).InRange
  | .duration, m => (Duration.mk m.secondsAndNanos.1 m.secondsAndNanos.2).InRange

instance : (shape : JsonShape) → (m : Message) → Decidable (shape.Admits m)
  | .object, _ => inferInstanceAs (Decidable True)
  | .timestamp, m =>
    inferInstanceAs (Decidable (Timestamp.mk m.secondsAndNanos.1 m.secondsAndNanos.2).InRange)
  | .duration, m =>
    inferInstanceAs (Decidable (Duration.mk m.secondsAndNanos.1 m.secondsAndNanos.2).InRange)

mutual

/-- A value that JSON can say. -/
inductive Value.Exact (S : Schema Ref) : FieldType Ref → Value → Prop
  | plain {t : PlainType} {v : t.wire.Carrier} (h : t.wire.Exact v) :
      Value.Exact S (.plain t) (.scalar t.wire v)
  | message {r : Ref} {slots : List Slot} (shape : (S r).shape.Admits slots)
      (h : List.Forall₂ (Slot.Exact S) (S r).slots slots) :
      Value.Exact S (.message r) (.message slots)

inductive Slot.Exact (S : Schema Ref) : SlotType Ref → Slot → Prop
  | implicit {f : Field PlainType} {v : f.type.wire.Carrier} (h : f.type.wire.Exact v) :
      Slot.Exact S (.implicit f) (.implicit f.type.wire v)
  | absent (f : Field (FieldType Ref)) : Slot.Exact S (.optional f) (.optional none)
  | present {f : Field (FieldType Ref)} {v : Value} (h : Value.Exact S f.type v) :
      Slot.Exact S (.optional f) (.optional (some v))
  | repeated {f : Field (FieldType Ref)} {vs : List Value} (h : ∀ v ∈ vs, Value.Exact S f.type v) :
      Slot.Exact S (.repeated f) (.repeated vs)
  | map {key : Scalar} {f : Field (FieldType Ref)} {entries : List (MapKey × Value)}
      (h : ∀ e ∈ entries, Value.Exact S f.type e.2) : Slot.Exact S (.map key f) (.map entries)
  | unset (name : String) (members : List (Field (FieldType Ref))) :
      Slot.Exact S (.oneof name members) (.oneof none)
  | member {name : String} {members : List (Field (FieldType Ref))} {number : Nat} {v : Value}
      (h : ∀ f ∈ members, f.number = number → Value.Exact S f.type v) :
      Slot.Exact S (.oneof name members) (.oneof (some (number, v)))

end

def Message.Exact (S : Schema Ref) (r : Ref) (m : Message) : Prop :=
  (S r).shape.Admits m ∧ List.Forall₂ (Slot.Exact S) (S r).slots m

theorem Value.Exact.of_message {S : Schema Ref} {r : Ref} {m : Message}
    (h : Value.Exact S (.message r) (.message m)) : Message.Exact S r m := by
  cases h with
  | message shape h => exact ⟨shape, h⟩

/-! ## Schemas -/

/-- The JSON name of a field and the one that it has in the schema. -/
def Field.names {τ : Type} (f : Field τ) : String × String := (f.jsonName, f.protoName)

namespace SlotType

def names : SlotType Ref → List (String × String)
  | implicit f => [f.names]
  | optional f => [f.names]
  | repeated f => [f.names]
  | map _ f => [f.names]
  | oneof _ members => members.map Field.names

def types : SlotType Ref → List (FieldType Ref)
  | implicit f => [.plain f.type]
  | optional f => [f.type]
  | repeated f => [f.type]
  | map _ f => [f.type]
  | oneof _ members => members.map (·.type)

def implicitWire? : SlotType Ref → Option Scalar
  | implicit f => some f.type.wire
  | _ => none

end SlotType

/-- Whether two fields are told apart by what they are written as: what one is written as
    is neither what the other is written as nor another name of the other. -/
def Apart (a b : String × String) : Prop := a.1 ≠ b.1 ∧ a.1 ≠ b.2 ∧ a.2 ≠ b.1

instance (a b : String × String) : Decidable (Apart a b) := inferInstanceAs (Decidable (_ ∧ _))

theorem Apart.symm {a b : String × String} (h : Apart a b) : Apart b a :=
  ⟨h.1.symm, h.2.2.symm, h.2.1.symm⟩

instance : Std.Symm Apart := ⟨fun _ _ => Apart.symm⟩

/-- Whether the values of an enum are told apart by their names. -/
def PlainType.hasDistinctNames : PlainType → Bool
  | .scalar _ => true
  | .enumeration e => decide (e.values.map (·.1)).Nodup

def FieldType.hasDistinctNames : FieldType Ref → Bool
  | .plain t => t.hasDistinctNames
  | .message _ => true

/-- A message type of which the fields are told apart by their names, and so are the values of
    each enum. -/
structure MessageType.ToldApart (t : MessageType Ref) : Prop where
  fields : (t.slots.flatMap SlotType.names).Pairwise Apart
  enums : ∀ s ∈ t.slots, ∀ u ∈ s.types, u.hasDistinctNames

instance (t : MessageType Ref) : Decidable t.ToldApart :=
  decidable_of_iff ((t.slots.flatMap SlotType.names).Pairwise Apart ∧
      ∀ s ∈ t.slots, ∀ u ∈ s.types, u.hasDistinctNames)
    ⟨fun h => ⟨h.1, h.2⟩, fun h => ⟨h.fields, h.enums⟩⟩

/-- A message type of which the fields are not told apart: `int32 hatSize = 1` and
    `int32 hat_size = 2` have one JSON name. -/
def capSizes : Schema Unit := fun _ =>
  { name := "rack.Cap"
    slots := [("hatSize", 1), ("hat_size", 2)].map fun (name, number) =>
      .implicit ⟨number, name, lowerCamelCase name, .scalar .int32⟩ }

def capOf (first second : Int32) : Message := [.implicit .int32 first, .implicit .int32 second]

theorem capOf_inj {first second first' second' : Int32}
    (h : capOf first second = capOf first' second') : first = first' ∧ second = second' := by
  cases h
  exact ⟨rfl, rfl⟩

/-- Whether a type that is not written as an object is that of moments and durations. -/
def MessageType.WellShaped (t : MessageType Ref) : Prop :=
  t.shape ≠ .object → t.slots.map SlotType.implicitWire? = [some .int64, some .int32]

instance (t : MessageType Ref) : Decidable t.WellShaped := inferInstanceAs (Decidable (_ → _))

def Schema.WellShaped (S : Schema Ref) : Prop := ∀ r, (S r).WellShaped

/-- The types that a message of a type may have messages of in it, however deep, and its own. -/
inductive Schema.Reaches (S : Schema Ref) : Ref → Ref → Prop
  | self (r : Ref) : Reaches S r r
  | part {r q p : Ref} {t : SlotType Ref} (slot : t ∈ (S r).slots) (type : .message q ∈ t.types)
      (rest : Reaches S q p) : Reaches S r p

end Protobuf
