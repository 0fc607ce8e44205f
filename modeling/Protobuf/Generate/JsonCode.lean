import Protobuf.Generate.WireCode

/-! # Code for the JSON mapping

The functions of a message that make a JSON object of it and merge one into it.  Members
are written in the order of the field numbers.  They are looked up field by field, the
oneofs behind the other fields, and of the members of a oneof at most one may be there.

* `MessageModel.jsonCode`: both functions.
-/

namespace Protobuf

def jsonEncoder (name : String) : Code := .fixed (":: protoquill :: json :: encode :: " ++ name)

def jsonDecoder (name : String) : Code := .fixed (":: protoquill :: json :: decode :: " ++ name)

def forType (function type : Code) : Code := .sequence [function, ":: <", type, ">"]

def ValueForm.jsonOfReference (v : ValueForm) (reference : Code) : Code :=
  match v with
  | .scalar k => call (jsonEncoder k.jsonKind.name) [k.referenceArgument reference]
  | .enumeration path =>
    call (forType (jsonEncoder "enumeration") path.code) [Scalar.referenceArgument .int32 reference]
  | .message .. => .sequence [call (jsonEncoder "message") [v.derefCode reference], "?"]

def ValueForm.jsonOfPlace (v : ValueForm) (place : Code) : Code :=
  match v with
  | .scalar k => call (jsonEncoder k.jsonKind.name) [k.placeArgument place]
  | .enumeration path =>
    call (forType (jsonEncoder "enumeration") path.code) [Scalar.placeArgument .int32 place]
  | .message .. => .sequence [call (jsonEncoder "message") [.sequence ["&", place]], "?"]

/-- The JSON value of a list or a map.  `plain` is the function that takes elements
    which have a JSON value for certain, `fallible` the one for messages. -/
def collectionJson (plain fallible : String) (v : ValueForm) (place : Code) : Code :=
  match v with
  | .message path _ _ =>
    .sequence
      [ jsonEncoder fallible,
        .parens
          ["&", place, ",", forType (jsonEncoder "message") path.code, ","],
        "?" ]
  | _ =>
    call (jsonEncoder plain)
      [.sequence ["&", place], .sequence ["| value |", v.jsonOfReference "value"]]

def insertMember (jsonName : String) (value : Code) : Code :=
  .sequence [call "object . insert" [.literal jsonName, value], ";"]

def FieldModel.toJsonCode (f : FieldModel) : Code :=
  let place := selfField f.ident
  let collection := fun plain fallible =>
    Code.sequence
      [ "if !",
        place,
        ". is_empty ()",
        .braces [insertMember f.jsonName (collectionJson plain fallible f.value place)] ]
  match f.shape with
  | .implicit =>
    .sequence
      [ "if",
        f.value.isSetCode place,
        .braces [insertMember f.jsonName (f.value.jsonOfPlace place)] ]
  | .optional =>
    .sequence
      [ "if let",
        someCode "value",
        "= &",
        place,
        .braces [insertMember f.jsonName (f.value.jsonOfReference "value")] ]
  | .repeated => collection "array" "try_array"
  | .map _ => collection "map" "try_map"

def FieldPlace.toJsonCode : FieldPlace → Code
  | field f => f.toJsonCode
  | member o v =>
    .sequence
      [ "if let",
        someCode (o.memberCode v "value"),
        "= &",
        selfField o.field,
        .braces [insertMember v.field.jsonName (v.field.value.jsonOfReference "value")] ]

/-! ## Reading -/

def ValueForm.decoderCode : ValueForm → Code
  | scalar k => jsonDecoder k.jsonKind.name
  | enumeration path => forType (jsonDecoder "enumeration") path.code
  | message path _ _ => forType (jsonDecoder "message") path.code

def ValueForm.ofJsonCode (v : ValueForm) : Code := .sequence [call v.decoderCode ["value"], "?"]

/-- What is done with the member of a field under either of its names. -/
def ifMember (f : FieldModel) (body : List Code) : Code :=
  .sequence
    [ "if let",
      someCode "value",
      "=",
      call "object . get" [.literal f.jsonName, .literal f.name],
      "?",
      .braces body ]

def FieldModel.mergeJsonCode (f : FieldModel) : Code :=
  let place := selfField f.ident
  ifMember f
    [ match f.shape, f.value with
      | .implicit, v => .sequence [place, "=", v.ofJsonCode, ";"]
      | .optional, v@(.message ..) =>
        .sequence
          [ call (jsonDecoder "merge_message") [v.derefMutCode (orDefaultCode f.ident), "value"],
            "? ;" ]
      | .optional, v => .sequence [place, "=", someCode v.ofJsonCode, ";"]
      | .repeated, v =>
        .sequence
          [ place,
            ". extend",
            .parens [call (jsonDecoder "array") ["value", v.decoderCode], "?"],
            ";" ]
      | .map key, v =>
        .sequence
          [ place,
            ". extend",
            .parens
              [ call
                  (forType (jsonDecoder "map") (.sequence [key.typeCode, ",", v.typeCode]))
                  ["value", v.decoderCode],
                "? ," ],
            ";" ] ]

def OneofModel.mergeJsonCode (o : OneofModel) : Code :=
  .braces
    [ "let mut choice : :: std :: option :: Option <",
      o.pathCode,
      "> = :: std :: option :: Option :: None ;",
      .sequence (o.variants.map fun v =>
        ifMember v.field
          [ "if choice . is_some ()",
            .braces
              [ "return :: std :: result :: Result :: Err",
                .parens
                  [ ":: protoquill :: DecodeError :: conflicting_oneof",
                    .parens [.literal o.name],
                    "," ],
                ";" ],
            "choice =",
            someCode (o.memberCode v (v.field.value.store v.field.value.ofJsonCode)),
            ";" ]),
      "if let",
      someCode "choice",
      "= choice",
      .braces [selfField o.field, "=", someCode "choice", ";"] ]

def MessageModel.toJsonFunction (m : MessageModel) : Code :=
  let places := m.places
  .sequence
    [ "fn to_json (& self ,) -> :: std :: result :: Result < :: protoquill :: json :: Value ,",
      ":: protoquill :: EncodeError >",
      .braces
        (if places.isEmpty then
          [ ":: std :: result :: Result :: Ok",
            .parens [":: protoquill :: json :: JsonWriter :: new () . finish ()"] ]
        else
          [ "let mut object = :: protoquill :: json :: JsonWriter :: new () ;",
            .sequence (places.map (·.toJsonCode)),
            ":: std :: result :: Result :: Ok (object . finish ())" ]) ]

def MessageModel.mergeJsonFunction (m : MessageModel) : Code :=
  .sequence
    [ "fn merge_json (& mut self , value : & :: protoquill :: json :: Value ,)",
      "-> :: std :: result :: Result < () , :: protoquill :: DecodeError >",
      .braces
        (if m.places.isEmpty then
          [ ":: protoquill :: json :: JsonObject :: new (value) ? ;",
            ":: std :: result :: Result :: Ok (())" ]
        else
          [ "let object = :: protoquill :: json :: JsonObject :: new (value) ? ;",
            .sequence (m.fields.map (·.mergeJsonCode)),
            .sequence (m.oneofs.map (·.mergeJsonCode)),
            ":: std :: result :: Result :: Ok (())" ]) ]

def MessageModel.jsonCode (m : MessageModel) : Code :=
  .sequence
    [ "impl :: protoquill :: JsonCodec for",
      m.ident,
      .braces [m.toJsonFunction, m.mergeJsonFunction] ]

end Protobuf
