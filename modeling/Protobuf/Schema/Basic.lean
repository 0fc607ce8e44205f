import Protobuf.Json.ScalarForm
import Protobuf.Text.CamelCase

/-! # Schemas and messages

A schema describes message types; a message is a list of slots, one for each slot of
its type.  A slot is a field or a oneof: whatever at most one of the members of a
oneof can hold is held in one place, so that two members are never set at once.

Schemas may be recursive.  They are functions from a type `Ref` of names, so that a
reference always leads to a message type.

* `FieldType`, `SlotType`, `MessageType`, `Schema`: what may be in a message.
* `Value`, `Slot`: what is in a message.
* `MessageType.default`: the message of which nothing is set.
-/

namespace Protobuf

inductive PlainType
  | scalar (k : Scalar)
  | enumeration (e : EnumType)
deriving DecidableEq, Repr

/-- The scalar kind that a plain value has on the wire.  The values of an enum are
    numbers, known or not. -/
def PlainType.wire : PlainType → Scalar
  | .scalar k => k
  | .enumeration _ => .int32

inductive FieldType (Ref : Type)
  | plain (t : PlainType)
  | message (r : Ref)
deriving DecidableEq, Repr

/-- A field: its number, its two names, and what its values are. -/
structure Field (τ : Type) where
  number : Nat
  protoName : String
  jsonName : String
  type : τ
deriving DecidableEq, Repr

/-- How a slot of a message is filled. -/
inductive SlotType (Ref : Type)
  /-- Always holds a value; the default counts as not set. -/
  | implicit (f : Field PlainType)
  | optional (f : Field (FieldType Ref))
  | repeated (f : Field (FieldType Ref))
  | map (key : Scalar) (f : Field (FieldType Ref))
  | oneof (name : String) (members : List (Field (FieldType Ref)))
deriving DecidableEq, Repr

/-- How a message type is written in JSON. -/
inductive JsonShape
  /-- As an object with a member for each field that is set. -/
  | object
  /-- As the text of a moment. -/
  | timestamp
  /-- As the text of a span. -/
  | duration
deriving DecidableEq, Repr

/-- A message type.  Its slots are the fields outside oneofs, then the oneofs, both
    in declaration order. -/
structure MessageType (Ref : Type) where
  name : String
  slots : List (SlotType Ref)
  shape : JsonShape := .object
deriving DecidableEq, Repr

abbrev Schema (Ref : Type) := Ref → MessageType Ref

namespace SlotType

variable {Ref : Type}

def numbers : SlotType Ref → List Nat
  | implicit f => [f.number]
  | optional f => [f.number]
  | repeated f => [f.number]
  | map _ f => [f.number]
  | oneof _ members => members.map (·.number)

end SlotType

/-! ## Messages -/

mutual

/-- A single value.  Enum values are `int32` scalars. -/
inductive Value
  | scalar (k : Scalar) (v : k.Carrier)
  | message (slots : List Slot)

inductive Slot
  | implicit (k : Scalar) (v : k.Carrier)
  | optional (v : Option Value)
  | repeated (vs : List Value)
  | map (entries : List (MapKey × Value))
  /-- The member that is set, by its field number. -/
  | oneof (member : Option (Nat × Value))

end

instance : Inhabited Value := ⟨.message []⟩

instance : Inhabited Slot := ⟨.oneof none⟩

/-- A message, as the slots of its type. -/
abbrev Message := List Slot

def Value.messageOr (fallback : Message) : Value → Message
  | .message m => m
  | .scalar _ _ => fallback

def SlotType.default {Ref : Type} : SlotType Ref → Slot
  | .implicit f => .implicit f.type.wire f.type.wire.default
  | .optional _ => .optional none
  | .repeated _ => .repeated []
  | .map _ _ => .map []
  | .oneof _ _ => .oneof none

def MessageType.default {Ref : Type} (t : MessageType Ref) : Message :=
  t.slots.map SlotType.default

def FieldType.default {Ref : Type} (S : Schema Ref) : FieldType Ref → Value
  | .plain t => .scalar t.wire t.wire.default
  | .message r => .message (S r).default

/-- Puts what the fields of a message emit into ascending order of field numbers.
    What one field emits stays in order. -/
def byNumber {α : Type} (emitted : List (Nat × α)) : List α :=
  (emitted.mergeSort fun a b => a.1 ≤ b.1).map (·.2)

end Protobuf
