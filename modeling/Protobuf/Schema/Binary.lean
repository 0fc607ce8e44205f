import Protobuf.Schema.Basic
import Protobuf.Wire.Cursor

/-! # Messages on the wire

Writing puts one record, or one for each element, for whatever is set, in ascending
order of field numbers.  Reading merges records into a message one after the other:
singular fields take the last value, lists grow, sub-messages are merged, and records
of unknown fields are passed over.

Sub-messages and map entries may be nested a hundred deep.

* `Message.encode`: the bytes of a message.
* `Message.mergeBytes`: merges bytes into a message.  A failure leaves what was
  merged before it.
* `Message.decode`: a message from nothing but bytes.
-/

namespace Protobuf

variable {Ref : Type}

def Value.wireType : Value → WireType
  | .scalar k _ => k.wireType
  | .message _ => .delimited

def packedPayload : List Value → Bytes
  | [] => []
  | .scalar k v :: rest => k.put v ++ packedPayload rest
  | .message _ :: rest => packedPayload rest

/-- Whether values of a type share one record. -/
def FieldType.isPacked : FieldType Ref → Bool
  | .plain t => t.wire.isPackable
  | .message _ => false

mutual

def Value.payload (S : Schema Ref) : FieldType Ref → Value → Bytes
  | _, .scalar k v => k.put v
  | .message r, .message slots => delimit (byNumber (slotRecords S (S r).slots slots)).flatten
  | .plain _, .message _ => []

def slotRecords (S : Schema Ref) : List (SlotType Ref) → List Slot → List (Nat × Bytes)
  | t :: ts, s :: ss => Slot.records S t s ++ slotRecords S ts ss
  | _, _ => []

def Slot.records (S : Schema Ref) : SlotType Ref → Slot → List (Nat × Bytes)
  | .implicit f, .implicit k v =>
    if v = k.default then [] else [(f.number, keyed f.number k.wireType (k.put v))]
  | .optional f, .optional (some v) =>
    [(f.number, keyed f.number v.wireType (v.payload S f.type))]
  | .repeated f, .repeated vs =>
    if f.type.isPacked then
      if vs.isEmpty then []
      else [(f.number, keyed f.number .delimited (delimit (packedPayload vs)))]
    else elementRecords S f vs
  | .map key f, .map entries => entryRecords S key f entries
  | .oneof _ members, .oneof (some (number, v)) =>
    match members.find? (·.number = number) with
    | some f => [(number, keyed number v.wireType (v.payload S f.type))]
    | none => []
  | _, _ => []

def elementRecords (S : Schema Ref) (f : Field (FieldType Ref)) : List Value → List (Nat × Bytes)
  | [] => []
  | v :: rest =>
    (f.number, keyed f.number v.wireType (v.payload S f.type)) :: elementRecords S f rest

/-- A record for each entry of a map: a message with the key as field 1 and the value
    as field 2, both always written. -/
def entryRecords (S : Schema Ref) (key : Scalar) (f : Field (FieldType Ref)) :
    List (MapKey × Value) → List (Nat × Bytes)
  | [] => []
  | (k, v) :: rest =>
    (f.number, keyed f.number .delimited (delimit
      (keyed 1 key.wireType (key.put (k.toScalar key)) ++ keyed 2 v.wireType (v.payload S f.type))))
      :: entryRecords S key f rest

end

namespace Message

def encode (S : Schema Ref) (r : Ref) (m : Message) : Bytes :=
  (byNumber (slotRecords S (S r).slots m)).flatten

end Message

/-! ## Reading -/

/-- What can be done with a delimited payload: merging it into a message, or reading
    it as a map entry.  Both take one more level of nesting. -/
structure Nested (Ref : Type) where
  merge : Ref → Bytes → Message → Except DecodeError Unit × Message
  entry : Scalar → FieldType Ref → Bytes → Except DecodeError (MapKey × Value)

/-- Merges the payload of a record into a message.  The message is left as it was if
    there is no delimited payload. -/
def Nested.mergeRecord (nested : Nested Ref) (r : Record) (ref : Ref) (m : Message) :
    Except DecodeError Unit × Message :=
  match r.content .delimited with
  | .ok bytes => nested.merge ref bytes m
  | .error e => (.error e, m)

/-- Reads a value that replaces what was there before. -/
def Nested.fresh (S : Schema Ref) (nested : Nested Ref) (r : Record) :
    FieldType Ref → Except DecodeError Value
  | .plain t => (r.scalar t.wire).map (.scalar t.wire)
  | .message ref =>
    match nested.mergeRecord r ref (S ref).default with
    | (.ok (), m) => .ok (.message m)
    | (.error e, _) => .error e

/-- Merges a record into the value of an optional field or of a oneof member that is
    set: plain values are replaced, messages merged. -/
def Nested.onto (S : Schema Ref) (nested : Nested Ref) (r : Record) (old : Value) :
    FieldType Ref → Except DecodeError Unit × Value
  | .plain t =>
    match r.scalar t.wire with
    | .ok v => (.ok (), .scalar t.wire v)
    | .error e => (.error e, old)
  | .message ref =>
    let (outcome, m) := nested.mergeRecord r ref (old.messageOr (S ref).default)
    (outcome, .message m)

def Slot.mergeRecord (S : Schema Ref) (nested : Nested Ref) (r : Record) :
    SlotType Ref → Slot → Except DecodeError Unit × Slot
  | .implicit f, s =>
    match r.scalar f.type.wire with
    | .ok v => (.ok (), .implicit f.type.wire v)
    | .error e => (.error e, s)
  | .optional f, .optional none =>
    match f.type with
    | .plain t =>
      match r.scalar t.wire with
      | .ok v => (.ok (), .optional (some (.scalar t.wire v)))
      | .error e => (.error e, .optional none)
    -- A sub-message is present from the moment that a record for it is met.
    | .message ref =>
      let (outcome, v) := nested.onto S r (.message (S ref).default) (.message ref)
      (outcome, .optional (some v))
  | .optional f, .optional (some v) =>
    let (outcome, v) := nested.onto S r v f.type
    (outcome, .optional (some v))
  | .repeated f, .repeated vs =>
    match f.type with
    | .plain t =>
      let (outcome, new) := r.scalars t.wire
      (outcome, .repeated (vs ++ new.map (.scalar t.wire)))
    | .message ref =>
      match nested.fresh S r (.message ref) with
      | .ok v => (.ok (), .repeated (vs ++ [v]))
      | .error e => (.error e, .repeated vs)
  | .map key f, .map entries =>
    match r.content .delimited with
    | .error e => (.error e, .map entries)
    | .ok bytes =>
      match nested.entry key f.type bytes with
      | .ok (k, v) => (.ok (), .map (MapEntries.insert k v entries))
      | .error e => (.error e, .map entries)
  | .oneof _ members, .oneof member =>
    match members.find? (·.number = r.number) with
    | none => (r.skip, .oneof member)
    | some f =>
      match member with
      | some (number, v) =>
        if number = r.number then
          let (outcome, v) := nested.onto S r v f.type
          (outcome, .oneof (some (number, v)))
        else replace f member
      | none => replace f member
  | _, s => (r.skip, s)
where
  /-- Another member takes the place of the one that was set, once it was read. -/
  replace (f : Field (FieldType Ref)) (member : Option (Nat × Value)) :
      Except DecodeError Unit × Slot :=
    match nested.fresh S r f.type with
    | .ok v => (.ok (), .oneof (some (r.number, v)))
    | .error e => (.error e, .oneof member)

/-- Merges a record into the slot that claims its number.  A number that no slot
    claims is unknown, and the record is passed over. -/
def mergeRecord (S : Schema Ref) (nested : Nested Ref) (r : Record) :
    List (SlotType Ref) → Message → Except DecodeError Unit × Message
  | t :: ts, s :: ss =>
    if r.number ∈ t.numbers then
      let (outcome, s) := s.mergeRecord S nested r t
      (outcome, s :: ss)
    else
      let (outcome, ss) := mergeRecord S nested r ts ss
      (outcome, s :: ss)
  | _, ss => (r.skip, ss)

def entryStep (S : Schema Ref) (nested : Nested Ref) (key : Scalar) (t : FieldType Ref)
    (r : Record) (entry : key.Carrier × Value) : Except DecodeError Unit × (key.Carrier × Value) :=
  if r.number = 1 then
    match r.scalar key with
    | .ok k => (.ok (), (k, entry.2))
    | .error e => (.error e, entry)
  else if r.number = 2 then
    let (outcome, v) := nested.onto S r entry.2 t
    (outcome, (entry.1, v))
  else (r.skip, entry)

/-- Reading delimited payloads with so many levels of nesting left. -/
def nestedWithin (S : Schema Ref) : (levels : Nat) → Nested Ref
  | 0 =>
    { merge := fun _ _ m => (.error (.nestingLimit nestingLimit), m)
      entry := fun _ _ _ => .error (.nestingLimit nestingLimit) }
  | levels + 1 =>
    let deeper := nestedWithin S levels
    { merge := fun ref bytes m =>
        Record.forEach (fun r m => mergeRecord S deeper r (S ref).slots m) bytes m
      entry := fun key t bytes =>
        match Record.forEach (entryStep S deeper key t) bytes (key.default, t.default S) with
        | (.ok (), (k, v)) => .ok (.ofScalar key k, v)
        | (.error e, _) => .error e }

/-- With no level left, no sub-message is read. -/
@[simp] theorem nestedWithin_zero_merge (S : Schema Ref) (r : Ref) (bytes : Bytes) (m : Message) :
    (nestedWithin S 0).merge r bytes m = (.error (.nestingLimit nestingLimit), m) :=
  rfl

/-- With no level left, no map entry is read. -/
@[simp] theorem nestedWithin_zero_entry (S : Schema Ref) (key : Scalar) (t : FieldType Ref)
    (bytes : Bytes) : (nestedWithin S 0).entry key t bytes = .error (.nestingLimit nestingLimit) :=
  rfl

/-- A sub-message is read like a message, with one level less. -/
theorem nestedWithin_succ_merge (S : Schema Ref) (levels : Nat) (r : Ref) (bytes : Bytes)
    (m : Message) :
    (nestedWithin S (levels + 1)).merge r bytes m =
      Record.forEach (fun rec m => mergeRecord S (nestedWithin S levels) rec (S r).slots m)
        bytes m :=
  rfl

/-- A map entry is read like a message of two fields, with one level less. -/
theorem nestedWithin_succ_entry (S : Schema Ref) (levels : Nat) (key : Scalar) (t : FieldType Ref)
    (bytes : Bytes) :
    (nestedWithin S (levels + 1)).entry key t bytes =
      match Record.forEach (entryStep S (nestedWithin S levels) key t) bytes
          (key.default, t.default S) with
      | (.ok (), (k, v)) => .ok (.ofScalar key k, v)
      | (.error e, _) => .error e :=
  rfl

namespace Message

/-- Merges bytes into a message of type `r`. -/
def mergeBytes (S : Schema Ref) (r : Ref) (bytes : Bytes) (m : Message) :
    Except DecodeError Unit × Message :=
  Record.forEach
    (fun rec m => mergeRecord S (nestedWithin S nestingLimit) rec (S r).slots m) bytes m

def decode (S : Schema Ref) (r : Ref) (bytes : Bytes) : Except DecodeError Message :=
  match mergeBytes S r bytes (S r).default with
  | (.ok (), m) => .ok m
  | (.error e, _) => .error e

end Message

/-- Merges the payload of the current record of a cursor into a message. -/
def Cursor.readMessage (c : Cursor) (S : Schema Ref) (r : Ref) (m : Message) :
    Cursor.Outcome Unit × Message :=
  match c.content .delimited with
  | (.error fault, c) => ((.error fault, c), m)
  | (.ok bytes, c) =>
    match (nestedWithin S (nestingLimit - c.depth)).merge r bytes m with
    | (.ok (), m) => ((.ok (), c), m)
    | (.error e, m) => ((.error (.malformed e), c), m)

end Protobuf
