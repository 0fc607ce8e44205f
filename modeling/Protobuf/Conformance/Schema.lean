import Protobuf.Schema.Basic

/-! # The schemas of the conformance suite

The messages that a conformance run exchanges, and the messages that it tests: one
with a field of every kind and cardinality, and a few small ones.

* `TestMessage`: the names of the message types.
* `TestMessage.schema`: the types.
* `TestMessage.ofName?`: the type of a full name.
-/

namespace Protobuf

inductive TestMessage
  | timestamp
  | duration
  | failureSet
  | request
  | response
  | allTypes
  | nested
  | foreign
  | hat
  | scalars
  | wardrobe
  | tree
deriving DecidableEq, Repr

namespace TestMessage

/-! ## Enums -/

def wireFormat : EnumType :=
  ⟨"conformance.WireFormat",
    [("UNSPECIFIED", 0), ("PROTOBUF", 1), ("JSON", 2), ("JSPB", 3), ("TEXT_FORMAT", 4)]⟩

def testCategory : EnumType :=
  ⟨"conformance.TestCategory",
    [("UNSPECIFIED_TEST", 0), ("BINARY_TEST", 1), ("JSON_TEST", 2),
      ("JSON_IGNORE_UNKNOWN_PARSING_TEST", 3), ("JSPB_TEST", 4), ("TEXT_FORMAT_TEST", 5)]⟩

def nestedEnum : EnumType :=
  ⟨"protobuf_test_messages.proto3.TestAllTypesProto3.NestedEnum",
    [("FOO", 0), ("BAR", 1), ("BAZ", 2), ("NEG", -1)]⟩

def foreignEnum : EnumType :=
  ⟨"protobuf_test_messages.proto3.ForeignEnum",
    [("FOREIGN_FOO", 0), ("FOREIGN_BAR", 1), ("FOREIGN_BAZ", 2)]⟩

def style : EnumType :=
  ⟨"quill.test.Style",
    [("STYLE_UNSPECIFIED", 0), ("STYLE_FEDORA", 1), ("STYLE_BERET", 2), ("STYLE_BOWLER", -3)]⟩

/-! ## Fields -/

def field {τ : Type} (name : String) (number : Nat) (type : τ) : Field τ :=
  ⟨number, name, lowerCamelCase name, type⟩

def scalar (k : Scalar) : FieldType TestMessage := .plain (.scalar k)

def enumeration (e : EnumType) : FieldType TestMessage := .plain (.enumeration e)

def scalarFields (name : String → String) (first : Nat)
    (slot : String → Nat → Scalar → SlotType TestMessage) : List (SlotType TestMessage) :=
  let kinds : List Scalar :=
    [.int32, .int64, .uint32, .uint64, .sint32, .sint64, .fixed32, .fixed64, .sfixed32, .sfixed64,
      .float, .double, .bool, .string, .bytes]
  kinds.mapIdx fun i k => slot (name k.name) (first + i) k

def implicit (name : String) (number : Nat) (k : Scalar) : SlotType TestMessage :=
  .implicit (field name number (.scalar k))

def implicitEnum (name : String) (number : Nat) (e : EnumType) : SlotType TestMessage :=
  .implicit (field name number (.enumeration e))

def submessage (name : String) (number : Nat) (r : TestMessage) : SlotType TestMessage :=
  .optional (field name number (.message r))

def list (name : String) (number : Nat) (t : FieldType TestMessage) : SlotType TestMessage :=
  .repeated (field name number t)

def mapping (name : String) (number : Nat) (key : Scalar) (t : FieldType TestMessage) :
    SlotType TestMessage :=
  .map key (field name number t)

/-! ## Message types -/

def secondsAndNanos : List (SlotType TestMessage) :=
  [implicit "seconds" 1 .int64, implicit "nanos" 2 .int32]

/-- The slots of the message with a field of every kind. -/
def allTypesSlots : List (SlotType TestMessage) :=
  scalarFields ("optional_" ++ ·) 1 implicit ++
  [ submessage "optional_nested_message" 18 .nested,
    submessage "optional_foreign_message" 19 .foreign,
    implicitEnum "optional_nested_enum" 21 nestedEnum,
    implicitEnum "optional_foreign_enum" 22 foreignEnum,
    submessage "recursive_message" 27 .allTypes ] ++
  scalarFields ("repeated_" ++ ·) 31 (fun name number k => list name number (scalar k)) ++
  [ list "repeated_nested_message" 48 (.message .nested),
    list "repeated_foreign_message" 49 (.message .foreign),
    list "repeated_nested_enum" 51 (enumeration nestedEnum),
    list "repeated_foreign_enum" 52 (enumeration foreignEnum),
    mapping "map_int32_int32" 56 .int32 (scalar .int32),
    mapping "map_int64_int64" 57 .int64 (scalar .int64),
    mapping "map_uint32_uint32" 58 .uint32 (scalar .uint32),
    mapping "map_uint64_uint64" 59 .uint64 (scalar .uint64),
    mapping "map_sint32_sint32" 60 .sint32 (scalar .sint32),
    mapping "map_sint64_sint64" 61 .sint64 (scalar .sint64),
    mapping "map_fixed32_fixed32" 62 .fixed32 (scalar .fixed32),
    mapping "map_fixed64_fixed64" 63 .fixed64 (scalar .fixed64),
    mapping "map_sfixed32_sfixed32" 64 .sfixed32 (scalar .sfixed32),
    mapping "map_sfixed64_sfixed64" 65 .sfixed64 (scalar .sfixed64),
    mapping "map_int32_float" 66 .int32 (scalar .float),
    mapping "map_int32_double" 67 .int32 (scalar .double),
    mapping "map_bool_bool" 68 .bool (scalar .bool),
    mapping "map_string_string" 69 .string (scalar .string),
    mapping "map_string_bytes" 70 .string (scalar .bytes),
    mapping "map_string_nested_message" 71 .string (.message .nested),
    mapping "map_string_foreign_message" 72 .string (.message .foreign),
    mapping "map_string_nested_enum" 73 .string (enumeration nestedEnum),
    mapping "map_string_foreign_enum" 74 .string (enumeration foreignEnum),
    submessage "optional_duration" 301 .duration,
    submessage "optional_timestamp" 302 .timestamp,
    list "repeated_duration" 311 (.message .duration),
    list "repeated_timestamp" 312 (.message .timestamp),
    .oneof "oneof_field"
      [ field "oneof_uint32" 111 (scalar .uint32),
        field "oneof_nested_message" 112 (.message .nested),
        field "oneof_string" 113 (scalar .string),
        field "oneof_bytes" 114 (scalar .bytes),
        field "oneof_bool" 115 (scalar .bool),
        field "oneof_uint64" 116 (scalar .uint64),
        field "oneof_float" 117 (scalar .float),
        field "oneof_double" 118 (scalar .double),
        field "oneof_enum" 119 (enumeration nestedEnum) ] ]

def schema : Schema TestMessage
  | timestamp =>
    { name := "google.protobuf.Timestamp", slots := secondsAndNanos, shape := .timestamp }
  | duration =>
    { name := "google.protobuf.Duration", slots := secondsAndNanos, shape := .duration }
  | failureSet =>
    { name := "conformance.FailureSet", slots := [list "failure" 1 (scalar .string)] }
  | request =>
    { name := "conformance.ConformanceRequest"
      slots :=
        [ implicitEnum "requested_output_format" 3 wireFormat,
          implicit "message_type" 4 .string,
          implicitEnum "test_category" 5 testCategory,
          implicit "print_unknown_fields" 9 .bool,
          .oneof "payload"
            [ field "protobuf_payload" 1 (scalar .bytes),
              field "json_payload" 2 (scalar .string),
              field "jspb_payload" 7 (scalar .string),
              field "text_payload" 8 (scalar .string) ] ] }
  | response =>
    { name := "conformance.ConformanceResponse"
      slots :=
        [ .oneof "result"
            [ field "parse_error" 1 (scalar .string),
              field "serialize_error" 6 (scalar .string),
              field "timeout_error" 9 (scalar .string),
              field "runtime_error" 2 (scalar .string),
              field "protobuf_payload" 3 (scalar .bytes),
              field "json_payload" 4 (scalar .string),
              field "skipped" 5 (scalar .string),
              field "jspb_payload" 7 (scalar .string),
              field "text_payload" 8 (scalar .string) ] ] }
  | allTypes =>
    { name := "protobuf_test_messages.proto3.TestAllTypesProto3", slots := allTypesSlots }
  | nested =>
    { name := "protobuf_test_messages.proto3.TestAllTypesProto3.NestedMessage"
      slots := [implicit "a" 1 .int32, submessage "corecursive" 2 .allTypes] }
  | foreign =>
    { name := "protobuf_test_messages.proto3.ForeignMessage", slots := [implicit "c" 1 .int32] }
  | hat =>
    { name := "quill.test.Hat"
      slots := [implicit "inches" 1 .int32, implicit "color" 2 .string, implicit "name" 3 .string] }
  | scalars => { name := "quill.test.Scalars", slots := scalarFields (· ++ "_field") 1 implicit }
  | wardrobe =>
    { name := "quill.test.Wardrobe"
      slots :=
        [ list "hats" 1 (.message .hat),
          list "sizes" 2 (scalar .int32),
          list "labels" 3 (scalar .string),
          list "styles" 4 (enumeration style),
          mapping "stock" 5 .string (scalar .uint64),
          mapping "by_id" 6 .int32 (.message .hat),
          implicitEnum "favorite" 7 style,
          .optional (field "nickname" 8 (scalar .string)),
          .optional (field "count" 9 (scalar .int32)),
          submessage "featured" 10 .hat,
          submessage "opened_at" 14 .timestamp,
          submessage "open_for" 15 .duration,
          .oneof "display"
            [ field "shelf" 11 (scalar .uint32),
              field "window" 12 (scalar .string),
              field "mannequin" 13 (.message .hat) ] ] }
  | tree =>
    { name := "quill.test.Tree"
      slots :=
        [ implicit "value" 1 .int32,
          submessage "left" 2 .tree,
          submessage "right" 3 .tree,
          list "children" 4 (.message .tree) ] }

def all : List TestMessage :=
  [timestamp, duration, failureSet, request, response, allTypes, nested, foreign, hat, scalars,
    wardrobe, tree]

def ofName? (name : String) : Option TestMessage := all.find? fun r => (schema r).name = name

def enums : List EnumType := [wireFormat, testCategory, nestedEnum, foreignEnum, style]

def enumOfName? (name : String) : Option EnumType := enums.find? (·.name = name)

end TestMessage

end Protobuf
