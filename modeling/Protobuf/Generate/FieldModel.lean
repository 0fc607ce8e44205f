import Protobuf.Generate.DocComment
import Protobuf.Generate.Reference
import Protobuf.Text.CamelCase

/-! # Fields of generated code

A field of a schema with everything settled that its code depends on.

* `FieldShape`: how many values a field holds, and how it tells whether it is set.
* `ValueForm`: what one value is.
* `FieldModel.ofDescriptor`: the model of a field; of several faults the first one that
  is met on the way from its name to its type is reported.
-/

namespace Protobuf

inductive FieldShape
  /-- One value; the default stands for "not set".  A member of a oneof, too: whether it is
      set is told by the oneof. -/
  | implicit
  | optional
  | repeated
  | map (key : Scalar)
deriving DecidableEq, Repr

inductive ValueForm
  | scalar (k : Scalar)
  /-- The number of a value of an enum, known or not. -/
  | enumeration (path : TypeRef)
  /-- A message; `boxed` if it lies behind a pointer. -/
  | message (path partialPath : TypeRef) (boxed : Bool)

structure FieldModel where
  number : UInt32
  name : String
  jsonName : String
  ident : Ident
  shape : FieldShape
  value : ValueForm
  doc : List String := []

def FieldDescriptor.supportedKind (f : FieldDescriptor) : Except GenerateError FieldKind :=
  match f.kind? with
  | some .group => .error (.groupsUnsupported (f.name.getD ""))
  | some kind => .ok kind
  | none => .error (.invalidFieldType (f.name.getD "") (f.type.getD (-1)))

def FieldDescriptor.referredType (f : FieldDescriptor) : Except GenerateError String :=
  match f.typeName with
  | some typeName => .ok typeName
  | none => .error (.unresolvedType (f.name.getD "") "")

/-- What one value of a field is.  `name` is the field that errors name: the value field
    of a map entry stands for the map. -/
def NameTable.valueForm (t : NameTable) (source : List Ident) (name : String)
    (f : FieldDescriptor) (boxed : Bool) : Except GenerateError ValueForm := do
  match ← f.supportedKind with
  | .message =>
    let typeName ← f.referredType
    let path ← t.resolve source name typeName .message
    let partialPath ← t.resolvePartial source name typeName
    return .message path partialPath boxed
  | .enumeration => return .enumeration (← t.resolve source name (← f.referredType) .enumeration)
  | .scalar k => return .scalar k
  | .group => throw (.invalidFieldType name FieldKind.group.code)

/-- What the values of a field are and, for a map, its key. -/
def NameTable.fieldValue (t : NameTable) (message : String) (source : List Ident) (name : String)
    (f : FieldDescriptor) : Except GenerateError (Option Scalar × ValueForm) := do
  let kind ← f.supportedKind
  if kind = .message && f.isRepeated then
    let typeName ← f.referredType
    match entryOf? typeName t.mapEntries with
    | some entry =>
      match ← entry.key.supportedKind with
      | .scalar key => return (some key, ← t.valueForm source name entry.value false)
      | _ => throw (.invalidMapEntry typeName)
    | none => return (none, ← t.valueForm source name f false)
  else
    let boxed := t.boxed.contains (message, name) && !f.isRepeated
    return (none, ← t.valueForm source name f boxed)

def FieldDescriptor.shape (f : FieldDescriptor) (value : ValueForm) (inOneof : Bool) : FieldShape :=
  if f.isRepeated then .repeated
  else if inOneof then .implicit
  else
    match value with
    | .message .. => .optional
    | _ => if f.isProto3Optional then .optional else .implicit

def FieldModel.ofDescriptor (t : NameTable) (message : String) (source : List Ident)
    (f : FieldDescriptor) (ident : Ident) (inOneof : Bool) : Except GenerateError FieldModel := do
  let (name, number) ← f.nameAndNumber
  let (key, value) ← t.fieldValue message source name f
  return {
    number := number.toUInt32
    name
    jsonName := f.jsonName.getD (lowerCamelCase name)
    ident := ← ident.checked
    shape :=
      match key with
      | some key => .map key
      | none => f.shape value inOneof
    value }

end Protobuf
