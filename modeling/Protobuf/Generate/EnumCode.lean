import Protobuf.Generate.EnumModel
import Protobuf.Generate.TypeCode

/-! # Enums in code

The type that an enum becomes.  Values with one number share a variant and differ only in
the names that lead to it.

* `EnumModel.code`: the enum, its names and numbers, and its default.
-/

namespace Protobuf

def EnumValueModel.selfCode (v : EnumValueModel) : Code := .sequence ["Self ::", v.ident]

def EnumValueModel.numberCode (v : EnumValueModel) : Code := .integer v.number.toInt

namespace EnumModel

/-- The enum with its variants.  One without values cannot be given numbers. -/
def typeCode (e : EnumModel) : Code :=
  .sequence
    [ docCode e.doc,
      "# [derive (Debug , Clone , Copy , PartialEq , Eq , Hash , PartialOrd , Ord)]",
      if e.variants.isEmpty then .none else "# [repr (i32)]",
      "pub enum",
      e.ident,
      .braces (e.variants.map fun v =>
        .sequence [docCode v.doc, v.ident, "=", v.numberCode, ","]) ]

def foundArm (pattern : Code) (v : EnumValueModel) : Code :=
  .sequence [pattern, "=>", someCode v.selfCode, ","]

def lookupFunction (head subject : String) (arms : List Code) : Code :=
  .sequence
    [ .fixed (head ++ " -> :: std :: option :: Option < Self >"),
      .braces
        [ .fixed ("match " ++ subject),
          .braces [.sequence arms, "_ => :: std :: option :: Option :: None ,"] ] ]

def namesCode (e : EnumModel) : Code :=
  .sequence
    [ "impl :: protoquill :: ProtoEnum for",
      e.ident,
      .braces
        [ "const NAME : & 'static str =",
          .literal (withoutDots e.typeName),
          ";",
          lookupFunction "fn from_i32 (value : i32)" "value"
            (e.variants.map fun v => foundArm v.numberCode v),
          lookupFunction "fn from_str_name (name : & str)" "name"
            (e.values.map fun v => foundArm (.literal v.name) v),
          "fn as_str_name (& self) -> & 'static str",
          .braces
            [ "match * self",
              .braces (e.variants.map fun v =>
                .sequence [v.selfCode, "=>", .literal v.name, ","]) ],
          "fn to_i32 (self) -> i32",
          .braces (if e.variants.isEmpty then ["match self", .braces []] else ["self as i32"]) ] ]

def integerCode (e : EnumModel) : Code :=
  .sequence
    [ "impl :: std :: convert :: From <",
      e.ident,
      "> for i32",
      .braces
        [ "fn from",
          .parens ["value :", e.ident],
          "-> i32",
          .braces [":: protoquill :: ProtoEnum :: to_i32 (value)"] ] ]

def defaultCode (e : EnumModel) : Code :=
  match e.default? with
  | none => .none
  | some v =>
    .sequence
      [ "impl :: std :: default :: Default for",
        e.ident,
        .braces ["fn default () -> Self", .braces [v.selfCode]] ]

def code (e : EnumModel) : Code :=
  .sequence [e.typeCode, e.namesCode, e.integerCode, e.defaultCode]

end EnumModel

end Protobuf
