import Protobuf.Generate.MessageModel

/-! # Types and values in code

How the values of fields are held: the types of struct fields, and the expressions that
lead from what is held to the value and back.

* `ValueForm.typeCode`, `storedType`, `partialType`: the type of one value.
* `FieldModel.typeCode`, `partialTypeCode`: the type of a struct field.
-/

namespace Protobuf

def someCode (value : Code) : Code :=
  .sequence [":: std :: option :: Option :: Some", .parens [value]]

def optionType (type : Code) : Code := .sequence [":: std :: option :: Option <", type, ">"]

def boxType (type : Code) : Code := .sequence [":: std :: boxed :: Box <", type, ">"]

def boxCode (value : Code) : Code := .sequence [":: std :: boxed :: Box :: new", .parens [value]]

/-- The default of a type that the context tells. -/
def defaultCode : Code := ":: std :: default :: Default :: default ()"

def listType (type : Code) : Code := .sequence [":: std :: vec :: Vec <", type, ">"]

def mapType (key value : Code) : Code :=
  .sequence [":: std :: collections :: BTreeMap <", key, ",", value, ">"]

def selfField (ident : Ident) : Code := .sequence ["self .", ident]

def withoutDots (typeName : String) : String :=
  String.ofList (typeName.toList.dropWhile (· = '.'))

def call (function : Code) (arguments : List Code) : Code :=
  let separated :=
    match arguments with
    | [] => []
    | first :: rest => first :: rest.flatMap fun a => [Code.fixed ",", a]
  .sequence [function, .parens separated]

/-! ## Scalars -/

namespace Scalar

def typeCode : Scalar → Code
  | double => "f64"
  | float => "f32"
  | int32 | sint32 | sfixed32 => "i32"
  | int64 | sint64 | sfixed64 => "i64"
  | uint32 | fixed32 => "u32"
  | uint64 | fixed64 => "u64"
  | bool => "bool"
  | string => ":: std :: string :: String"
  | bytes => ":: std :: vec :: Vec < u8 >"

/-- The kind that stands for a kind in JSON, which depends on the type of its values
    alone. -/
def jsonKind : Scalar → Scalar
  | sint32 | sfixed32 => int32
  | sint64 | sfixed64 => int64
  | fixed32 => uint32
  | fixed64 => uint64
  | k => k

def placeArgument (k : Scalar) (place : Code) : Code :=
  if k.isPackable then place else .sequence ["&", place]

def referenceArgument (k : Scalar) (reference : Code) : Code :=
  if k.isPackable then .sequence ["*", reference] else reference

/-- The condition for a value in place to differ from the default.  Of the two zeros of a
    float only the positive one is the default. -/
def isSetCode (k : Scalar) (place : Code) : Code :=
  match k with
  | double | float => .sequence [place, ". to_bits () != 0"]
  | bool => place
  | string | bytes => .sequence ["!", place, ". is_empty ()"]
  | _ => .sequence [place, "!= 0"]

end Scalar

/-! ## Values -/

def initializeCode (path : Code) : Code :=
  .sequence ["<", path, "as :: protoquill :: Message > :: initialize"]

namespace ValueForm

def typeCode : ValueForm → Code
  | scalar k => k.typeCode
  | enumeration _ => "i32"
  | message path _ _ => path.code

def storedType : ValueForm → Code
  | message path _ true => boxType path.code
  | v => v.typeCode

def partialType : ValueForm → Code
  | message _ partialPath true => boxType partialPath.code
  | message _ partialPath false => partialPath.code
  | v => v.typeCode

/-- What is held for a value of a partial message. -/
def ofPartial : ValueForm → Code → Code
  | message path _ true, value =>
    boxCode (call (initializeCode path.code) [.sequence ["*", value]])
  | message path _ false, value => call (initializeCode path.code) [value]
  | _, value => value

def store : ValueForm → Code → Code
  | message _ _ true, value => boxCode value
  | _, value => value

/-- A reference to a message, from one to what is held. -/
def derefCode : ValueForm → Code → Code
  | message _ _ true, value => .sequence ["& * *", value]
  | _, value => value

def derefMutCode : ValueForm → Code → Code
  | message _ _ true, value => .sequence ["& mut * *", value]
  | _, value => value

end ValueForm

/-! ## Fields -/

namespace FieldModel

def numberCode (f : FieldModel) : Code := .integer f.number.toNat

def typeCode (f : FieldModel) : Code :=
  match f.shape with
  | .implicit => f.value.storedType
  | .optional => optionType f.value.storedType
  | .repeated => listType f.value.storedType
  | .map key => mapType key.typeCode f.value.storedType

def partialTypeCode (f : FieldModel) : Code :=
  optionType
    (match f.shape with
    | .implicit | .optional => f.value.partialType
    | .repeated => listType f.value.partialType
    | .map key => mapType key.typeCode f.value.partialType)

end FieldModel

def OneofModel.pathCode (o : OneofModel) : Code := .sequence [o.module, "::", o.ident]

def OneofModel.memberCode (o : OneofModel) (v : VariantModel) (payload : Code) : Code :=
  call (.sequence [o.pathCode, "::", v.ident]) [payload]

end Protobuf
