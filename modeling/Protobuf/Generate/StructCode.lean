import Protobuf.Generate.TypeCode

/-! # Structs

The types that a message becomes: a struct with a field for each field and each oneof of
the message, a partial struct in which every field may be left out, and an enum for each
oneof.

* `MessageModel.structCode`: both structs.
* `MessageModel.messageCode`: the name of the message, and how a partial struct is made
  whole.
* `OneofModel.enumCode`: the enum of a oneof.
-/

namespace Protobuf

def structField (doc : List String) (ident : Ident) (type : Code) : Code :=
  .sequence [docCode doc, "pub", ident, ":", type, ","]

def structDerives : Code := "# [derive (Debug , Clone , Default , PartialEq)]"

def OneofModel.typeCode (o : OneofModel) : Code := optionType o.pathCode

def OneofModel.enumCode (o : OneofModel) : Code :=
  .sequence
    [ docCode o.doc,
      "# [derive (Debug , Clone , PartialEq)] pub enum",
      o.ident,
      .braces (o.variants.map fun v =>
        .sequence [docCode v.field.doc, v.ident, .parens [v.inner.typeCode], ","]) ]

def FieldModel.ofPartial (f : FieldModel) : Code :=
  match f.shape, f.value with
  | .implicit, v => v.ofPartial "value"
  | .optional, v => someCode (v.ofPartial "value")
  | .repeated, .message path _ _ =>
    .sequence
      ["value . into_iter () . map", .parens [initializeCode path.code], ". collect ()"]
  | .map _, .message path _ _ =>
    .sequence
      [ "value . into_iter () . map",
        .parens
          [ "| (key , value) |",
            .parens ["key ,", call (initializeCode path.code) ["value"]] ],
        ". collect ()" ]
  | _, _ => "value"

/-- The statement that takes a field from the partial message if it is there. -/
def overlayCode (ident : Ident) (value : Code) : Code :=
  .sequence
    [ "if let",
      someCode "value",
      "= partial .",
      ident,
      .braces ["message .", ident, "=", value, ";"] ]

namespace MessageModel

def structCode (m : MessageModel) : Code :=
  let partialDoc := " Partial form of [`" ++ m.ident.text ++ "`], accepted by `initialize`."
  .sequence
    [ docCode m.doc,
      structDerives,
      "pub struct",
      m.ident,
      .braces
        ((m.fields.map fun f => structField f.doc f.ident f.typeCode) ++
          m.oneofs.map fun o => structField o.doc o.field o.typeCode),
      "#",
      .brackets ["doc =", .literal partialDoc],
      structDerives,
      "pub struct",
      m.partialIdent,
      .braces
        ((m.fields.map fun f => structField [] f.ident f.partialTypeCode) ++
          m.oneofs.map fun o => structField [] o.field o.typeCode) ]

def initializeFunction (m : MessageModel) : Code :=
  if m.fields.isEmpty && m.oneofs.isEmpty then
    .sequence
      [ "fn initialize",
        .parens ["_partial :", m.partialIdent],
        "-> Self",
        .braces ["Self :: default ()"] ]
  else
    .sequence
      [ "fn initialize",
        .parens ["partial :", m.partialIdent],
        "-> Self",
        .braces
          [ "let mut message = Self :: default () ;",
            .sequence (m.fields.map fun f => overlayCode f.ident f.ofPartial),
            .sequence (m.oneofs.map fun o => overlayCode o.field (someCode "value")),
            "message" ] ]

def messageCode (m : MessageModel) : Code :=
  .sequence
    [ "impl :: protoquill :: Message for",
      m.ident,
      .braces
        [ "const NAME : & 'static str =",
          .literal (withoutDots m.typeName),
          "; type Partial =",
          m.partialIdent,
          ";",
          m.initializeFunction ] ]

end MessageModel

end Protobuf
