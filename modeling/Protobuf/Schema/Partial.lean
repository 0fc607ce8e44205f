import Protobuf.Schema.Basic

/-! # Partial messages

A partial message says for each slot either nothing or what the slot should hold;
sub-messages are partial in turn.  Completing it gives the message in which whatever
was left open has its default.

* `PartialMessage`, `PartialValue`, `PartialSlot`: what is said.
* `PartialMessage.complete`: the message.
-/

namespace Protobuf

variable {Ref : Type}

mutual

inductive PartialValue
  | scalar (k : Scalar) (v : k.Carrier)
  | message (slots : List PartialSlot)

inductive PartialSlot
  | unset
  | one (v : PartialValue)
  | list (vs : List PartialValue)
  | map (entries : List (MapKey × PartialValue))
  | member (number : Nat) (v : Value)

end

instance : Inhabited PartialValue := ⟨.message []⟩

instance : Inhabited PartialSlot := ⟨.unset⟩

abbrev PartialMessage := List PartialSlot

mutual

def PartialValue.complete (S : Schema Ref) : FieldType Ref → PartialValue → Value
  | _, .scalar k v => .scalar k v
  | .message r, .message slots => .message (completeSlots S (S r).slots slots)
  | .plain t, .message _ => .scalar t.wire t.wire.default

/-- The slots that partial slots complete to.  Slots that nothing is said about are
    left at their defaults, also behind the end of the list. -/
def completeSlots (S : Schema Ref) : List (SlotType Ref) → List PartialSlot → List Slot
  | t :: ts, p :: ps => PartialSlot.complete S t p :: completeSlots S ts ps
  | ts, [] => ts.map SlotType.default
  | [], _ :: _ => []

def PartialSlot.complete (S : Schema Ref) : SlotType Ref → PartialSlot → Slot
  | .implicit _, .one (.scalar k v) => .implicit k v
  | .optional f, .one v => .optional (some (v.complete S f.type))
  | .repeated f, .list vs => .repeated (completeList S f.type vs)
  | .map _ f, .map entries => .map (completeEntries S f.type entries)
  | .oneof _ _, .member number v => .oneof (some (number, v))
  | t, _ => t.default

def completeList (S : Schema Ref) (t : FieldType Ref) : List PartialValue → List Value
  | [] => []
  | v :: rest => v.complete S t :: completeList S t rest

def completeEntries (S : Schema Ref) (t : FieldType Ref) :
    List (MapKey × PartialValue) → List (MapKey × Value)
  | [] => []
  | (k, v) :: rest => (k, v.complete S t) :: completeEntries S t rest

end

def PartialMessage.complete (S : Schema Ref) (r : Ref) (p : PartialMessage) : Message :=
  completeSlots S (S r).slots p

end Protobuf
