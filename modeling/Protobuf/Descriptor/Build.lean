import Protobuf.Descriptor.Basic
import Protobuf.Text.CamelCase
import Protobuf.Text.LetterCase

/-! # Building descriptors

Descriptors for a schema that has no file.  Each function adds one part and, with it,
what a compiler of schema files would derive: the JSON name of a field, the oneof of an
`optional` field and the entry message of a map field.

* `FieldDescriptor.ofScalar`, `ofMessage`, `ofEnum`, and what changes a field after that.
* `MessageDescriptor.addField`, `addOneof`, `addMap`, `addNested`, `addEnum`.
* `FileDescriptor.addDependency`, `addMessage`, `addEnum`.
-/

namespace Protobuf

namespace FieldDescriptor

def ofKind (name : String) (number : Int32) (kind : FieldKind) : FieldDescriptor :=
  { name := some name
    number := some number
    label := some Label.optional.code
    type := some kind.code
    jsonName := some (lowerCamelCase name) }

def ofMessage (name : String) (number : Int32) (typeName : String) : FieldDescriptor :=
  { ofKind name number .message with typeName := some typeName }

def ofEnum (name : String) (number : Int32) (typeName : String) : FieldDescriptor :=
  { ofKind name number .enumeration with typeName := some typeName }

def asRepeated (f : FieldDescriptor) : FieldDescriptor :=
  { f with label := some Label.repeated.code }

def asOptional (f : FieldDescriptor) : FieldDescriptor := { f with proto3Optional := some true }

def withJsonName (f : FieldDescriptor) (jsonName : String) : FieldDescriptor :=
  { f with jsonName := some jsonName }

end FieldDescriptor

def EnumDescriptor.ofValues (name : String) (values : List (String × Int32)) : EnumDescriptor :=
  { name := some name
    values := values.map fun v => { name := some v.1, number := some v.2 } }

/-! ## Messages -/

/-- The name of the entry message of the map field `name`: `labels_by_id` has
    `LabelsByIdEntry`. -/
def mapEntryName (name : String) : String := capitalized (lowerCamelCase name) ++ "Entry"

namespace MessageDescriptor

def named (name : String) : MessageDescriptor := { name := some name }

def addField (m : MessageDescriptor) (f : FieldDescriptor) : MessageDescriptor :=
  if f.isProto3Optional then
    { m with
      fields := m.fields ++ [{ f with oneofIndex := some (Int32.ofNat m.oneofs.length) }]
      oneofs := m.oneofs ++ [{ name := some ("_" ++ f.name.getD "") }] }
  else { m with fields := m.fields ++ [f] }

def addOneof (m : MessageDescriptor) (name : String) (members : List FieldDescriptor) :
    MessageDescriptor :=
  let member := fun f : FieldDescriptor =>
    { f with oneofIndex := some (Int32.ofNat m.oneofs.length), proto3Optional := none }
  { m with
    fields := m.fields ++ members.map member
    oneofs := m.oneofs ++ [{ name := some name }] }

/-- Adds a map field and its entry message, whose field 1 is the key and field 2 the
    value.  `scope` is the fully-qualified name of this message. -/
def addMap (m : MessageDescriptor) (name : String) (number : Int32) (key : FieldKind)
    (value : FieldDescriptor) (scope : String) : MessageDescriptor :=
  let entryName := mapEntryName name
  let valueField :=
    { value with
      name := some "value"
      number := some 2
      jsonName := some "value"
      label := some Label.optional.code
      oneofIndex := none
      proto3Optional := none }
  let entry : MessageDescriptor :=
    { name := some entryName
      fields := [FieldDescriptor.ofKind "key" 1 key, valueField]
      options := some { mapEntry := some true } }
  let field := FieldDescriptor.ofMessage name number (scope ++ "." ++ entryName)
  { m with
    nestedTypes := m.nestedTypes ++ [entry]
    fields := m.fields ++ [field.asRepeated] }

def addNested (m inner : MessageDescriptor) : MessageDescriptor :=
  { m with nestedTypes := m.nestedTypes ++ [inner] }

def addEnum (m : MessageDescriptor) (e : EnumDescriptor) : MessageDescriptor :=
  { m with enumTypes := m.enumTypes ++ [e] }

end MessageDescriptor

/-! ## Files -/

namespace FileDescriptor

def named (name package : String) : FileDescriptor :=
  { name := some name
    package := if package = "" then none else some package
    dialect := some "proto3" }

def addDependency (f : FileDescriptor) (name : String) : FileDescriptor :=
  { f with dependencies := f.dependencies ++ [name] }

def addMessage (f : FileDescriptor) (m : MessageDescriptor) : FileDescriptor :=
  { f with messageTypes := f.messageTypes ++ [m] }

def addEnum (f : FileDescriptor) (e : EnumDescriptor) : FileDescriptor :=
  { f with enumTypes := f.enumTypes ++ [e] }

end FileDescriptor

end Protobuf
