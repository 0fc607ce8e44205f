import Protobuf.Generate.TypeCode

/-! # Code for the wire format

The functions of a message that write it as records and merge records into it.  Fields are
written in the order of their numbers: one whose default stands for "not set" unless it is
at its default, a oneof member whenever it is the one that is set.

* `MessageModel.wireCode`: both functions.
-/

namespace Protobuf

/-- The kind by which a value that is no message is written and read.  Enums are plain
    integers. -/
def ValueForm.codec? : ValueForm → Option Scalar
  | scalar k => some k
  | enumeration _ => some .int32
  | message .. => none

/-- The kind of a list that shares one record. -/
def ValueForm.packedCodec? (v : ValueForm) : Option Scalar := v.codec?.filter (·.isPackable)

def methodOf (object : Code) (verb : String) (k : Scalar) : Code :=
  .sequence [object, ".", .fixed (verb ++ k.name)]

def ValueForm.writeReference (v : ValueForm) (writer number reference : Code) : Code :=
  match v.codec? with
  | some k =>
    .sequence [call (methodOf writer "write_" k) [number, k.referenceArgument reference], ";"]
  | none =>
    .sequence
      [call (.sequence [writer, ". write_message"]) [number, v.derefCode reference], ";"]

def ValueForm.writePlace (v : ValueForm) (writer number place : Code) : Code :=
  match v.codec? with
  | some k => .sequence [call (methodOf writer "write_" k) [number, k.placeArgument place], ";"]
  | none =>
    .sequence [call (.sequence [writer, ". write_message"]) [number, .sequence ["&", place]], ";"]

def ValueForm.isSetCode (v : ValueForm) (place : Code) : Code :=
  match v with
  | .scalar k => k.isSetCode place
  | _ => .sequence [place, "!= 0"]

def FieldModel.writeCode (f : FieldModel) : Code :=
  let place := selfField f.ident
  let writer : Code := "writer"
  match f.shape with
  | .implicit =>
    .sequence ["if", f.value.isSetCode place,
      .braces [f.value.writePlace writer f.numberCode place]]
  | .optional =>
    .sequence
      [ "if let",
        someCode "value",
        "= &",
        place,
        .braces [f.value.writeReference writer f.numberCode "value"] ]
  | .repeated =>
    match f.value.packedCodec? with
    | some k =>
      .sequence
        [ "if !",
          place,
          ". is_empty ()",
          .braces
            [ call (methodOf writer "write_packed_" k) [f.numberCode, .sequence ["&", place]],
              ";" ] ]
    | none =>
      .sequence
        ["for value in &", place, .braces [f.value.writeReference writer f.numberCode "value"]]
  | .map key =>
    .sequence
      [ "for (key , value) in &",
        place,
        .braces
          [ call "writer . write_nested"
              [ f.numberCode,
                .sequence
                  [ "| entry |",
                    .braces
                      [ ValueForm.writeReference (.scalar key) "entry" "1" "key",
                        f.value.writeReference "entry" "2" "value" ] ] ],
            ";" ] ]

def FieldPlace.writeCode : FieldPlace → Code
  | field f => f.writeCode
  | member o v =>
    .sequence
      [ "if let",
        someCode (o.memberCode v "value"),
        "= &",
        selfField o.field,
        .braces [v.field.value.writeReference "writer" v.field.numberCode "value"] ]

/-! ## Reading -/

/-- The expression that reads a value.  Messages are merged in place instead. -/
def ValueForm.readCode (v : ValueForm) (reader : Code) : Code :=
  match v.codec? with
  | some k => .sequence [methodOf reader "read_" k, "() ?"]
  | none => .sequence [reader, ". read_message () ?"]

def readMessageCode (reader target : Code) : Code :=
  .sequence [call (.sequence [reader, ". read_message"]) [target], "?"]

def freshMessageCode (type : Code) : Code :=
  .sequence
    [ "let mut value :",
      type,
      "=",
      defaultCode,
      ";",
      readMessageCode "reader" "& mut value",
      ";" ]

/-- A field of the message, which a default is put into if it is not set. -/
def orDefaultCode (ident : Ident) : Code :=
  .sequence
    [selfField ident, ". get_or_insert_with (:: std :: default :: Default :: default)"]

def readEntryCode (f : FieldModel) (key : Scalar) : Code :=
  let readValue : Code :=
    match f.value with
    | .message .. => readMessageCode "entry" "& mut value"
    | v => .sequence ["value =", v.readCode "entry"]
  let body : Code :=
    .braces
      [ "let mut key :", key.typeCode, "=", defaultCode, ";",
        "let mut value :", f.value.typeCode, "=", defaultCode, ";",
        "while entry . next_field () ?",
        .braces
          [ "match entry . field_number ()",
            .braces
              [ "1 => key =", ValueForm.readCode (.scalar key) "entry", ",",
                "2 =>", readValue, ",",
                "_ => entry . skip_field () ? ," ] ],
        ":: std :: result :: Result :: Ok ((key , value))" ]
  .sequence
    [ "let (key , value) = reader . read_nested",
      .parens ["| entry |", body],
      "? ;",
      selfField f.ident,
      ". insert (key , value) ;" ]

def FieldModel.mergeCode (f : FieldModel) : Code :=
  let place := selfField f.ident
  match f.shape, f.value with
  | .implicit, v => .sequence [place, "=", v.readCode "reader", ";"]
  | .optional, v@(.message ..) =>
    .sequence [readMessageCode "reader" (v.derefMutCode (orDefaultCode f.ident)), ";"]
  | .optional, v => .sequence [place, "=", someCode (v.readCode "reader"), ";"]
  | .repeated, v@(.message ..) =>
    .sequence [freshMessageCode v.typeCode, place, ". push (value) ;"]
  | .repeated, v =>
    match v.packedCodec? with
    | some k =>
      .sequence
        [call (methodOf "reader" "read_repeated_" k) [.sequence ["& mut", place]], "? ;"]
    | none => .sequence [place, ". push", .parens [v.readCode "reader"], ";"]
  | .map key, _ => readEntryCode f key

def OneofModel.mergeCode (o : OneofModel) (v : VariantModel) : Code :=
  let place := selfField o.field
  match v.field.value with
  | value@(.message ..) =>
    .sequence
      [ "match & mut",
        place,
        .braces
          [ someCode (o.memberCode v "value"),
            "=>",
            .braces [readMessageCode "reader" (value.derefMutCode "value"), ";"],
            "_ =>",
            .braces
              [ freshMessageCode value.typeCode,
                place,
                "=",
                someCode (o.memberCode v (value.store "value")),
                ";" ] ] ]
  | value => .sequence [place, "=", someCode (o.memberCode v (value.readCode "reader")), ";"]

def FieldPlace.mergeCode : FieldPlace → Code
  | field f => .sequence [f.numberCode, "=>", .braces [f.mergeCode]]
  | member o v => .sequence [v.field.numberCode, "=>", .braces [o.mergeCode v]]

def MessageModel.wireCode (m : MessageModel) : Code :=
  let places := m.places
  let writer : Code := if places.isEmpty then "_writer" else "writer"
  .sequence
    [ "impl :: protoquill :: BinaryCodec for",
      m.ident,
      .braces
        [ "fn encode_fields",
          .parens ["& self ,", writer, ": & mut :: protoquill :: Writer"],
          .braces (places.map (·.writeCode)),
          "fn merge_fields (& mut self , reader : & mut :: protoquill :: Reader < '_ > ,)",
          "-> :: std :: result :: Result < () , :: protoquill :: DecodeError >",
          .braces
            [ "while reader . next_field () ?",
              .braces
                [ "match reader . field_number ()",
                  .braces
                    [ .sequence (places.map (·.mergeCode)), "_ => reader . skip_field () ? ," ] ],
              ":: std :: result :: Result :: Ok (())" ] ] ]

end Protobuf
