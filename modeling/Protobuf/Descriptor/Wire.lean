import Protobuf.Descriptor.Basic
import Protobuf.Wire.Cursor

/-! # Descriptors on the wire

A descriptor is written as a message: a record for everything that is there, in the
order of the field numbers.  What is absent leaves no record, and what is there but
empty leaves an empty one, so that the two can be told apart when they are read back.

Reading passes over what is not modelled.  Of a part that may occur once, the last
occurrence counts.

* `DescriptorSet.encode` and `DescriptorSet.decode`.
* `FileDescriptor.encode` and `FileDescriptor.read`, for messages that hold files.
-/

namespace Protobuf

def optionalRecord (number : Nat) (k : Scalar) : Option k.Carrier → Bytes
  | some v => keyed number k.wireType (k.put v)
  | none => []

def repeatedRecords (number : Nat) (k : Scalar) (vs : List k.Carrier) : Bytes :=
  vs.flatMap fun v => keyed number k.wireType (k.put v)

/-- The record of a list of numbers that shares one payload; an empty list has none. -/
def packedRecord (number : Nat) (k : Scalar) (vs : List k.Carrier) : Bytes :=
  if vs.isEmpty then [] else keyed number .delimited (delimit (k.pack vs))

def nestedRecord (number : Nat) (bytes : Bytes) : Bytes :=
  keyed number .delimited (delimit bytes)

def FieldDescriptor.encode (f : FieldDescriptor) : Bytes :=
  optionalRecord 1 .string f.name ++ optionalRecord 3 .int32 f.number ++
    optionalRecord 4 .int32 f.label ++ optionalRecord 5 .int32 f.type ++
    optionalRecord 6 .string f.typeName ++ optionalRecord 7 .string f.defaultValue ++
    optionalRecord 9 .int32 f.oneofIndex ++ optionalRecord 10 .string f.jsonName ++
    optionalRecord 17 .bool f.proto3Optional

def EnumValueDescriptor.encode (v : EnumValueDescriptor) : Bytes :=
  optionalRecord 1 .string v.name ++ optionalRecord 2 .int32 v.number

def EnumDescriptor.encode (e : EnumDescriptor) : Bytes :=
  optionalRecord 1 .string e.name ++ e.values.flatMap fun v => nestedRecord 2 v.encode

def OneofDescriptor.encode (o : OneofDescriptor) : Bytes := optionalRecord 1 .string o.name

def MessageOptions.encode (o : MessageOptions) : Bytes := optionalRecord 7 .bool o.mapEntry

mutual

def MessageDescriptor.encode : MessageDescriptor → Bytes
  | ⟨name, fields, nestedTypes, enumTypes, options, oneofs⟩ =>
    optionalRecord 1 .string name ++ (fields.flatMap fun f => nestedRecord 2 f.encode) ++
      messageRecords 3 nestedTypes ++ (enumTypes.flatMap fun e => nestedRecord 4 e.encode) ++
      (options.toList.flatMap fun o => nestedRecord 7 o.encode) ++
      oneofs.flatMap fun o => nestedRecord 8 o.encode

def messageRecords (number : Nat) : List MessageDescriptor → Bytes
  | [] => []
  | m :: rest => nestedRecord number m.encode ++ messageRecords number rest

end

def SourceLocation.encode (l : SourceLocation) : Bytes :=
  packedRecord 1 .int32 l.path ++ packedRecord 2 .int32 l.span ++
    optionalRecord 3 .string l.leadingComments ++ optionalRecord 4 .string l.trailingComments ++
    repeatedRecords 6 .string l.leadingDetachedComments

def SourceInfo.encode (i : SourceInfo) : Bytes :=
  i.locations.flatMap fun l => nestedRecord 1 l.encode

def FileDescriptor.encode (f : FileDescriptor) : Bytes :=
  optionalRecord 1 .string f.name ++ optionalRecord 2 .string f.package ++
    repeatedRecords 3 .string f.dependencies ++ messageRecords 4 f.messageTypes ++
    (f.enumTypes.flatMap fun e => nestedRecord 5 e.encode) ++
    (f.sourceInfo.toList.flatMap fun i => nestedRecord 9 i.encode) ++
    optionalRecord 12 .string f.dialect

def DescriptorSet.encode (s : DescriptorSet) : Bytes :=
  s.files.flatMap fun f => nestedRecord 1 f.encode

/-! ## Reading -/

namespace Record

def fold {σ : Type} (step : Record → σ → Except DecodeError σ) (bytes : Bytes) (s : σ) :
    Except DecodeError σ :=
  let outcome := forEach
    (fun r s =>
      match step r s with
      | .ok s => (.ok (), s)
      | .error e => (.error e, s))
    bytes s
  match outcome with
  | (.ok (), s) => .ok s
  | (.error e, _) => .error e

def ignore {σ : Type} (r : Record) (s : σ) : Except DecodeError σ := r.skip.map fun _ => s

def appendTo (r : Record) (k : Scalar) (vs : List k.Carrier) :
    Except DecodeError (List k.Carrier) :=
  match r.scalars k with
  | (.ok (), new) => .ok (vs ++ new)
  | (.error e, _) => .error e

def text (r : Record) : Except DecodeError String := r.scalar .string

def int32 (r : Record) : Except DecodeError Int32 := r.scalar .int32

def bool (r : Record) : Except DecodeError Bool := r.scalar .bool

def nested {α : Type} (r : Record) (read : Bytes → Except DecodeError α) : Except DecodeError α :=
  r.content .delimited >>= read

end Record

/-- Reads a message that lies inside another one.  The message takes one of the levels
    of nesting that are left; `step` is told how many remain for what lies inside it. -/
def readNested {α : Type} (start : α) (step : (levels : Nat) → Record → α → Except DecodeError α) :
    (levels : Nat) → Bytes → Except DecodeError α
  | 0, _ => .error (.nestingLimit nestingLimit)
  | levels + 1, bytes => Record.fold (step levels) bytes start

def FieldDescriptor.read : (levels : Nat) → Bytes → Except DecodeError FieldDescriptor :=
  readNested {} fun _ r f =>
    match r.number with
    | 1 => return { f with name := some (← r.text) }
    | 3 => return { f with number := some (← r.int32) }
    | 4 => return { f with label := some (← r.int32) }
    | 5 => return { f with type := some (← r.int32) }
    | 6 => return { f with typeName := some (← r.text) }
    | 7 => return { f with defaultValue := some (← r.text) }
    | 9 => return { f with oneofIndex := some (← r.int32) }
    | 10 => return { f with jsonName := some (← r.text) }
    | 17 => return { f with proto3Optional := some (← r.bool) }
    | _ => r.ignore f

def EnumValueDescriptor.read : (levels : Nat) → Bytes → Except DecodeError EnumValueDescriptor :=
  readNested {} fun _ r v =>
    match r.number with
    | 1 => return { v with name := some (← r.text) }
    | 2 => return { v with number := some (← r.int32) }
    | _ => r.ignore v

def EnumDescriptor.read : (levels : Nat) → Bytes → Except DecodeError EnumDescriptor :=
  readNested {} fun levels r e =>
    match r.number with
    | 1 => return { e with name := some (← r.text) }
    | 2 => return { e with values := e.values ++ [← r.nested (EnumValueDescriptor.read levels)] }
    | _ => r.ignore e

def OneofDescriptor.read : (levels : Nat) → Bytes → Except DecodeError OneofDescriptor :=
  readNested {} fun _ r o =>
    match r.number with
    | 1 => return { o with name := some (← r.text) }
    | _ => r.ignore o

def MessageOptions.read : (levels : Nat) → Bytes → Except DecodeError MessageOptions :=
  readNested {} fun _ r o =>
    match r.number with
    | 7 => return { o with mapEntry := some (← r.bool) }
    | _ => r.ignore o

/-- Takes a record of a message.  `inner` reads the messages that are declared inside
    it, the other parts may nest `levels` deep. -/
def MessageDescriptor.step (inner : Bytes → Except DecodeError MessageDescriptor) (levels : Nat)
    (r : Record) (m : MessageDescriptor) : Except DecodeError MessageDescriptor :=
  match r.number with
  | 1 => return { m with name := some (← r.text) }
  | 2 => return { m with fields := m.fields ++ [← r.nested (FieldDescriptor.read levels)] }
  | 3 => return { m with nestedTypes := m.nestedTypes ++ [← r.nested inner] }
  | 4 => return { m with enumTypes := m.enumTypes ++ [← r.nested (EnumDescriptor.read levels)] }
  | 7 => return { m with options := some (← r.nested (MessageOptions.read levels)) }
  | 8 => return { m with oneofs := m.oneofs ++ [← r.nested (OneofDescriptor.read levels)] }
  | _ => r.ignore m

def MessageDescriptor.read : (levels : Nat) → Bytes → Except DecodeError MessageDescriptor
  | 0, _ => .error (.nestingLimit nestingLimit)
  | levels + 1, bytes => Record.fold (MessageDescriptor.step (read levels) levels) bytes {}

def SourceLocation.read : (levels : Nat) → Bytes → Except DecodeError SourceLocation :=
  readNested {} fun _ r l =>
    match r.number with
    | 1 => return { l with path := ← r.appendTo .int32 l.path }
    | 2 => return { l with span := ← r.appendTo .int32 l.span }
    | 3 => return { l with leadingComments := some (← r.text) }
    | 4 => return { l with trailingComments := some (← r.text) }
    | 6 => return { l with leadingDetachedComments := l.leadingDetachedComments ++ [← r.text] }
    | _ => r.ignore l

def SourceInfo.read : (levels : Nat) → Bytes → Except DecodeError SourceInfo :=
  readNested {} fun levels r i =>
    match r.number with
    | 1 => return { i with locations := i.locations ++ [← r.nested (SourceLocation.read levels)] }
    | _ => r.ignore i

def FileDescriptor.read : (levels : Nat) → Bytes → Except DecodeError FileDescriptor :=
  readNested {} fun levels r f =>
    match r.number with
    | 1 => return { f with name := some (← r.text) }
    | 2 => return { f with package := some (← r.text) }
    | 3 => return { f with dependencies := f.dependencies ++ [← r.text] }
    | 4 => return { f with
        messageTypes := f.messageTypes ++ [← r.nested (MessageDescriptor.read levels)] }
    | 5 => return { f with enumTypes := f.enumTypes ++ [← r.nested (EnumDescriptor.read levels)] }
    | 9 => return { f with sourceInfo := some (← r.nested (SourceInfo.read levels)) }
    | 12 => return { f with dialect := some (← r.text) }
    | _ => r.ignore f

def DescriptorSet.decode (bytes : Bytes) : Except DecodeError DescriptorSet :=
  Record.fold
    (fun r s =>
      match r.number with
      | 1 => return { s with files := s.files ++ [← r.nested (FileDescriptor.read nestingLimit)] }
      | _ => r.ignore s)
    bytes {}

end Protobuf
