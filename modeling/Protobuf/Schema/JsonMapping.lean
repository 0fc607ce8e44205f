import Protobuf.Schema.Basic
import Protobuf.Json.Parser
import Protobuf.Time.Timestamp
import Protobuf.Time.Duration

/-! # Messages as JSON

A message is an object with a member for each field that is set, in ascending order
of field numbers.  Moments and durations are texts instead.

Reading looks every field up by name, so the order of the members does not count,
unknown members are ignored and `null` is no value.  It merges into a message:
fields are looked at in the order of the slots, and what was merged before a failure
stays.

* `Message.toJson`: the JSON form of a message, which fails only on moments and
  durations out of range.
* `Message.mergeJson`: merges a JSON value into a message.
* `Message.ofJsonText`: a message from nothing but JSON text.
-/

namespace Protobuf

variable {Ref : Type}

def Message.secondsAndNanos : Message → Int64 × Int32
  | [.implicit .int64 seconds, .implicit .int32 nanos] => (seconds, nanos)
  | _ => (0, 0)

def Message.ofSecondsAndNanos (seconds : Int64) (nanos : Int32) : Message :=
  [.implicit .int64 seconds, .implicit .int32 nanos]

/-! ## Writing -/

def PlainType.toJson : (t : PlainType) → t.wire.Carrier → Json
  | .scalar k, v => k.toJson v
  | .enumeration e, number => e.toJson number

def PlainType.valueToJson (t : PlainType) (k : Scalar) (v : k.Carrier) : Json :=
  if h : k = t.wire then t.toJson (h ▸ v) else k.toJson v

/-- Gathers named members into an object.  The first failure is the answer. -/
def gather (members : List (String × Except EncodeFault Json)) (acc : Json.Members) :
    Except EncodeFault Json :=
  match members with
  | [] => .ok (.object acc)
  | (key, .ok v) :: rest => gather rest (acc.insert key v)
  | (_, .error e) :: _ => .error e

def shapeJson (shape : JsonShape) (m : Message)
    (members : List (Nat × (String × Except EncodeFault Json))) : Except EncodeFault Json :=
  match shape with
  | .object => gather (byNumber members) []
  | .timestamp =>
    let (seconds, nanos) := m.secondsAndNanos
    ((Timestamp.mk seconds nanos).toText.mapError .refused).map .string
  | .duration =>
    let (seconds, nanos) := m.secondsAndNanos
    (Duration.mk seconds nanos).toText.map .string

mutual

def Value.toJson (S : Schema Ref) : FieldType Ref → Value → Except EncodeFault Json
  | .plain t, .scalar k v => .ok (t.valueToJson k v)
  | .message r, .message slots => shapeJson (S r).shape slots (slotMembers S (S r).slots slots)
  | .message _, .scalar k v => .ok (k.toJson v)
  | .plain _, .message _ => .ok .null

def slotMembers (S : Schema Ref) :
    List (SlotType Ref) → List Slot → List (Nat × (String × Except EncodeFault Json))
  | t :: ts, s :: ss => Slot.members S t s ++ slotMembers S ts ss
  | _, _ => []

def Slot.members (S : Schema Ref) :
    SlotType Ref → Slot → List (Nat × (String × Except EncodeFault Json))
  | .implicit f, .implicit k v =>
    if v = k.default then [] else [(f.number, f.jsonName, .ok (f.type.valueToJson k v))]
  | .optional f, .optional (some v) => [(f.number, f.jsonName, v.toJson S f.type)]
  | .repeated f, .repeated vs =>
    if vs.isEmpty then []
    else [(f.number, f.jsonName, (elementsJson S f.type vs).map .array)]
  | .map _ f, .map entries =>
    if entries.isEmpty then []
    else [(f.number, f.jsonName, (entriesJson S f.type entries []).map .object)]
  | .oneof _ members, .oneof (some (number, v)) =>
    match members.find? (·.number = number) with
    | some f => [(number, f.jsonName, v.toJson S f.type)]
    | none => []
  | _, _ => []

def elementsJson (S : Schema Ref) (t : FieldType Ref) : List Value → Except EncodeFault (List Json)
  | [] => .ok []
  | v :: rest =>
    match v.toJson S t with
    | .error e => .error e
    | .ok j => (elementsJson S t rest).map (j :: ·)

def entriesJson (S : Schema Ref) (t : FieldType Ref) :
    List (MapKey × Value) → Json.Members → Except EncodeFault Json.Members
  | [], acc => .ok acc
  | (k, v) :: rest, acc =>
    match v.toJson S t with
    | .error e => .error e
    | .ok j => entriesJson S t rest (acc.insert k.toText j)

end

namespace Message

def toJson (S : Schema Ref) (r : Ref) (m : Message) : Except EncodeFault Json :=
  shapeJson (S r).shape m (slotMembers S (S r).slots m)

def toJsonText (S : Schema Ref) (r : Ref) (m : Message) : Except EncodeFault String :=
  (toJson S r m).map Json.text

end Message

/-! ## Reading -/

def PlainType.ofJson : (t : PlainType) → Json → Except DecodeError t.wire.Carrier
  | .scalar k, v => k.ofJson v
  | .enumeration e, v => e.ofJson v

/-- Reads each item of a list; the first failure is the answer. -/
def readEach {α β : Type} (read : α → Except DecodeError β) : List α → Except DecodeError (List β)
  | [] => .ok []
  | a :: rest =>
    match read a with
    | .error e => .error e
    | .ok b => (readEach read rest).map (b :: ·)

def PlainType.listOfJson (t : PlainType) : Json → Except DecodeError (List t.wire.Carrier)
  | .array items => readEach t.ofJson items
  | _ => .error (.unexpectedJson "array")

/-- A member of an object as a map entry: the key is read before the value. -/
def PlainType.entryOfJson (key : Scalar) (t : PlainType) (member : String × Json) :
    Except DecodeError (MapKey × t.wire.Carrier) :=
  match MapKey.ofText key member.1 with
  | .error e => .error e
  | .ok k => (t.ofJson member.2).map (k, ·)

def PlainType.entriesOfJson (key : Scalar) (t : PlainType) :
    Json → Except DecodeError (List (MapKey × t.wire.Carrier))
  | .object members => readEach (t.entryOfJson key) members
  | _ => .error (.unexpectedJson "object")

/-- What the members of an object say about messages, by the key of a member. -/
structure MemberReader (Ref : Type) where
  /-- Merges the value of a member into a message. -/
  merge : String → Ref → Message → Except DecodeError Unit × Message
  /-- The value of a member as a list of messages. -/
  elements : String → Ref → Except DecodeError (List Value)
  /-- The value of a member as map entries with messages. -/
  entries : String → Scalar → Ref → Except DecodeError (List (MapKey × Value))

namespace MemberReader

variable (S : Schema Ref) (reader : MemberReader Ref)

def fresh (key : String) (v : Json) : FieldType Ref → Except DecodeError Value
  | .plain t => (t.ofJson v).map (.scalar t.wire)
  | .message r =>
    match reader.merge key r (S r).default with
    | (.ok (), m) => .ok (.message m)
    | (.error e, _) => .error e

def list (key : String) (v : Json) : FieldType Ref → Except DecodeError (List Value)
  | .plain t => (t.listOfJson v).map fun vs => vs.map (.scalar t.wire)
  | .message r => reader.elements key r

def entryList (key : String) (v : Json) (mapKey : Scalar) :
    FieldType Ref → Except DecodeError (List (MapKey × Value))
  | .plain t => (t.entriesOfJson mapKey v).map fun es => es.map fun e => (e.1, .scalar t.wire e.2)
  | .message r => reader.entries key mapKey r

/-- The one member of a oneof that is given, after those that were looked at before.
    A second one is a conflict. -/
def choose (members : Json.Members) (name : String) :
    List (Field (FieldType Ref)) → Option (Nat × Value) →
      Except DecodeError (Option (Nat × Value))
  | [], choice => .ok choice
  | f :: rest, choice =>
    match members.field? f.jsonName f.protoName with
    | .error e => .error e
    | .ok none => choose members name rest choice
    | .ok (some (key, v)) =>
      if choice.isSome then .error (.conflictingOneof name)
      else
        match reader.fresh S key v f.type with
        | .error e => .error e
        | .ok v => choose members name rest (some (f.number, v))

end MemberReader

/-- Merges what an object says about a field into its slot, with `use` to merge the
    value once it is found. -/
def mergeNamed {τ : Type} (members : Json.Members) (f : Field τ) (s : Slot)
    (use : String → Json → Except DecodeError Unit × Slot) : Except DecodeError Unit × Slot :=
  match members.field? f.jsonName f.protoName with
  | .error e => (.error e, s)
  | .ok none => (.ok (), s)
  | .ok (some (key, v)) => use key v

/-- Merges what an object says about a slot. -/
def Slot.mergeObject (S : Schema Ref) (reader : MemberReader Ref) (members : Json.Members) :
    SlotType Ref → Slot → Except DecodeError Unit × Slot
  | .implicit f, s => mergeNamed members f s fun _ v =>
    match f.type.ofJson v with
    | .ok v => (.ok (), .implicit f.type.wire v)
    | .error e => (.error e, s)
  | .optional f, .optional old => mergeNamed members f (.optional old) fun key v =>
    match f.type with
    | .plain t =>
      match t.ofJson v with
      | .ok v => (.ok (), .optional (some (.scalar t.wire v)))
      | .error e => (.error e, .optional old)
    -- A sub-message is merged in place, and present from then on.
    | .message r =>
      let m := (old.map (·.messageOr (S r).default)).getD (S r).default
      let (outcome, m) := reader.merge key r m
      (outcome, .optional (some (.message m)))
  | .repeated f, .repeated vs => mergeNamed members f (.repeated vs) fun key v =>
    match reader.list key v f.type with
    | .ok new => (.ok (), .repeated (vs ++ new))
    | .error e => (.error e, .repeated vs)
  | .map k f, .map entries => mergeNamed members f (.map entries) fun key v =>
    match reader.entryList key v k f.type with
    | .ok new => (.ok (), .map (MapEntries.insertAll new entries))
    | .error e => (.error e, .map entries)
  | .oneof name fields, .oneof old =>
    match reader.choose S members name fields none with
    | .ok (some choice) => (.ok (), .oneof (some choice))
    | .ok none => (.ok (), .oneof old)
    | .error e => (.error e, .oneof old)
  | _, s => (.ok (), s)

/-- Merges what an object says about each slot in turn.  A failure leaves the slots
    behind it as they were. -/
def mergeSlots (S : Schema Ref) (reader : MemberReader Ref) (members : Json.Members) :
    List (SlotType Ref) → Message → Except DecodeError Unit × Message
  | t :: ts, s :: ss =>
    match s.mergeObject S reader members t with
    | (.error e, s) => (.error e, s :: ss)
    | (.ok (), s) =>
      let (outcome, ss) := mergeSlots S reader members ts ss
      (outcome, s :: ss)
  | _, ss => (.ok (), ss)

def mergeText (shape : JsonShape) (s : String) (m : Message) : Except DecodeError Unit × Message :=
  match shape with
  | .object => (.error (.unexpectedJson "object"), m)
  | .timestamp =>
    match Timestamp.ofText s with
    | .ok t => (.ok (), .ofSecondsAndNanos t.seconds t.nanos)
    | .error e => (.error e, m)
  | .duration =>
    match Duration.ofText s with
    | .ok d => (.ok (), .ofSecondsAndNanos d.seconds d.nanos)
    | .error e => (.error e, m)

def JsonShape.expected : JsonShape → String
  | .object => "object"
  | .timestamp | .duration => "string"

/-- Puts the message that a merge yields in front of a list. -/
def consMessage (merged : Except DecodeError Unit × Message)
    (rest : Except DecodeError (List Value)) : Except DecodeError (List Value) :=
  match merged with
  | (.error e, _) => .error e
  | (.ok (), m) => rest.map (.message m :: ·)

def consEntry (key : Except DecodeError MapKey) (merged : Except DecodeError Unit × Message)
    (rest : Except DecodeError (List (MapKey × Value))) :
    Except DecodeError (List (MapKey × Value)) :=
  match key, merged with
  | .error e, _ => .error e
  | .ok _, (.error e, _) => .error e
  | .ok k, (.ok (), m) => rest.map ((k, .message m) :: ·)

mutual

def Json.mergeInto (S : Schema Ref) : Json → Ref → Message → Except DecodeError Unit × Message
  | .object members, r, m =>
    match (S r).shape with
    | .object =>
      mergeSlots S
        { merge := Json.mergeMember S members
          elements := Json.memberElements S members
          entries := Json.memberEntries S members }
        members (S r).slots m
    | shape => (.error (.unexpectedJson shape.expected), m)
  | .string s, r, m => mergeText (S r).shape s m
  | _, r, m => (.error (.unexpectedJson (S r).shape.expected), m)

def Json.mergeMember (S : Schema Ref) :
    List (String × Json) → String → Ref → Message → Except DecodeError Unit × Message
  | [], _, _, m => (.ok (), m)
  | (k, v) :: rest, key, r, m =>
    if k = key then Json.mergeInto S v r m else Json.mergeMember S rest key r m

def Json.memberElements (S : Schema Ref) :
    List (String × Json) → String → Ref → Except DecodeError (List Value)
  | [], _, _ => .ok []
  | (k, .array items) :: rest, key, r =>
    if k = key then Json.messages S items r else Json.memberElements S rest key r
  | (k, _) :: rest, key, r =>
    if k = key then .error (.unexpectedJson "array") else Json.memberElements S rest key r

def Json.memberEntries (S : Schema Ref) :
    List (String × Json) → String → Scalar → Ref → Except DecodeError (List (MapKey × Value))
  | [], _, _, _ => .ok []
  | (k, .object members) :: rest, key, mapKey, r =>
    if k = key then Json.messageEntries S members mapKey r
    else Json.memberEntries S rest key mapKey r
  | (k, _) :: rest, key, mapKey, r =>
    if k = key then .error (.unexpectedJson "object") else Json.memberEntries S rest key mapKey r

def Json.messages (S : Schema Ref) : List Json → Ref → Except DecodeError (List Value)
  | [], _ => .ok []
  | v :: rest, r =>
    consMessage (Json.mergeInto S v r (S r).default) (Json.messages S rest r)

def Json.messageEntries (S : Schema Ref) :
    List (String × Json) → Scalar → Ref → Except DecodeError (List (MapKey × Value))
  | [], _, _ => .ok []
  | (k, v) :: rest, mapKey, r =>
    consEntry (MapKey.ofText mapKey k) (Json.mergeInto S v r (S r).default)
      (Json.messageEntries S rest mapKey r)

end

namespace Message

def mergeJson (S : Schema Ref) (r : Ref) (v : Json) (m : Message) :
    Except DecodeError Unit × Message :=
  v.mergeInto S r m

def mergeJsonText (S : Schema Ref) (r : Ref) (text : String) (m : Message) :
    Except DecodeError Unit × Message :=
  match Json.parse text with
  | .error e => (.error e, m)
  | .ok v => mergeJson S r v m

def ofJsonText (S : Schema Ref) (r : Ref) (text : String) : Except DecodeError Message :=
  match mergeJsonText S r text (S r).default with
  | (.ok (), m) => .ok m
  | (.error e, _) => .error e

end Message

end Protobuf
