import Protobuf.Wire.Scalar

/-! # Descriptors

A schema as data: the files of a compilation and the messages, fields, enums and
comments that they declare.  Everything is optional, as on the wire: a descriptor may
come from any program, and what it leaves out is judged where it is needed.

* `DescriptorSet`, `FileDescriptor`, `MessageDescriptor`, `FieldDescriptor`,
  `EnumDescriptor`: what is declared.
* `Label` and `FieldKind`: the meaning of the two numbers that a field carries.
-/

namespace Protobuf

inductive Label
  | optional
  | required
  | repeated
deriving DecidableEq, Repr

def Label.code : Label → Int32
  | .optional => 1
  | .required => 2
  | .repeated => 3

def Label.ofCode? (code : Int32) : Option Label :=
  [Label.optional, .required, .repeated].find? (·.code = code)

inductive FieldKind
  | scalar (k : Scalar)
  | group
  | message
  | enumeration
deriving DecidableEq, Repr

namespace FieldKind

def code : FieldKind → Int32
  | .scalar .double => 1
  | .scalar .float => 2
  | .scalar .int64 => 3
  | .scalar .uint64 => 4
  | .scalar .int32 => 5
  | .scalar .fixed64 => 6
  | .scalar .fixed32 => 7
  | .scalar .bool => 8
  | .scalar .string => 9
  | .group => 10
  | .message => 11
  | .scalar .bytes => 12
  | .scalar .uint32 => 13
  | .enumeration => 14
  | .scalar .sfixed32 => 15
  | .scalar .sfixed64 => 16
  | .scalar .sint32 => 17
  | .scalar .sint64 => 18

def all : List FieldKind := Scalar.all.map scalar ++ [group, message, enumeration]

def ofCode? (code : Int32) : Option FieldKind := all.find? (·.code = code)

theorem ofCode?_code (kind : FieldKind) : ofCode? kind.code = some kind := by
  cases kind with
  | scalar k => cases k <;> rfl
  | group => rfl
  | message => rfl
  | enumeration => rfl

end FieldKind

structure FieldDescriptor where
  name : Option String := none
  number : Option Int32 := none
  label : Option Int32 := none
  type : Option Int32 := none
  /-- The fully-qualified name of the message or enum that the field refers to. -/
  typeName : Option String := none
  defaultValue : Option String := none
  /-- The position of the field's oneof in its message. -/
  oneofIndex : Option Int32 := none
  jsonName : Option String := none
  /-- Whether the field tells "not set" apart from its default. -/
  proto3Optional : Option Bool := none
deriving DecidableEq, Repr

namespace FieldDescriptor

/-- The label of a field.  One that is missing or unknown counts as optional. -/
def cardinality (f : FieldDescriptor) : Label := (f.label.bind Label.ofCode?).getD .optional

def kind? (f : FieldDescriptor) : Option FieldKind := f.type.bind FieldKind.ofCode?

def isRepeated (f : FieldDescriptor) : Bool := f.cardinality = .repeated

def isProto3Optional (f : FieldDescriptor) : Bool := f.proto3Optional.getD false

/-- Whether a field is a member of a oneof that was declared.  An `optional` field sits
    in a oneof of its own, which does not count. -/
def isOneofMember (f : FieldDescriptor) : Bool := f.oneofIndex.isSome && !f.isProto3Optional

end FieldDescriptor

/-! ## Enums and messages -/

structure EnumValueDescriptor where
  name : Option String := none
  number : Option Int32 := none
deriving DecidableEq, Repr

structure EnumDescriptor where
  name : Option String := none
  values : List EnumValueDescriptor := []
deriving DecidableEq, Repr

structure OneofDescriptor where
  name : Option String := none
deriving DecidableEq, Repr

structure MessageOptions where
  mapEntry : Option Bool := none
deriving DecidableEq, Repr

structure MessageDescriptor where
  name : Option String := none
  fields : List FieldDescriptor := []
  nestedTypes : List MessageDescriptor := []
  enumTypes : List EnumDescriptor := []
  options : Option MessageOptions := none
  oneofs : List OneofDescriptor := []
deriving Inhabited

def MessageDescriptor.isMapEntry (m : MessageDescriptor) : Bool :=
  ((m.options.bind (·.mapEntry)).getD false)

/-! ## Files -/

/-- The comments on one element of a file.  `path` leads to it by field numbers and
    positions, starting from the descriptor of the file. -/
structure SourceLocation where
  path : List Int32 := []
  span : List Int32 := []
  leadingComments : Option String := none
  trailingComments : Option String := none
  leadingDetachedComments : List String := []
deriving DecidableEq, Repr

structure SourceInfo where
  locations : List SourceLocation := []
deriving DecidableEq, Repr

structure FileDescriptor where
  name : Option String := none
  package : Option String := none
  dependencies : List String := []
  messageTypes : List MessageDescriptor := []
  enumTypes : List EnumDescriptor := []
  sourceInfo : Option SourceInfo := none
  /-- A file that does not say is written in the older syntax. -/
  dialect : Option String := none

namespace FileDescriptor

def packageName (f : FileDescriptor) : String := f.package.getD ""

def isProto3 (f : FileDescriptor) : Bool := f.dialect = some "proto3"

/-- What the fully-qualified names of the types of a file begin with. -/
def scope (f : FileDescriptor) : String :=
  if f.packageName = "" then "." else "." ++ f.packageName ++ "."

end FileDescriptor

structure DescriptorSet where
  files : List FileDescriptor := []

end Protobuf
