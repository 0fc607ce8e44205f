/-! # Errors

What can go wrong, as causes.  Malformed input is always a `DecodeError`; a value
that was read well but cannot be written in the requested form is an
`EncodeError`; a call that no input can justify (a field number out of range, a
payload read twice) is a `Misuse`.

* `WireType` and its label, which mismatch errors quote.
* `DecodeError.message`, `EncodeError.message`, `Misuse.message`: one wording each.
* `EncodeFault`: what may come of writing a value that has no text.
-/

namespace Protobuf

/-- How the payload of a record is laid out.  The two group types are deprecated
    and are refused wherever a record is read. -/
inductive WireType
  | varint
  | fixed64
  | delimited
  | startGroup
  | endGroup
  | fixed32
deriving DecidableEq, Repr

def WireType.code : WireType → Nat
  | .varint => 0
  | .fixed64 => 1
  | .delimited => 2
  | .startGroup => 3
  | .endGroup => 4
  | .fixed32 => 5

def WireType.label : WireType → String
  | .varint => "Varint"
  | .fixed64 => "I64"
  | .delimited => "Len"
  | .startGroup => "SGroup"
  | .endGroup => "EGroup"
  | .fixed32 => "I32"

inductive DecodeError
  | invalidWireType (code : Nat)
  | invalidFieldNumber (number : Nat)
  | invalidVarint
  | unexpectedEnd
  | deprecatedGroup
  | wireTypeMismatch (field : Nat) (expected actual : WireType)
  | invalidText
  | nestingLimit (limit : Nat)
  | malformedJson
  | repeatedKey (key : String)
  | unexpectedJson (expected : String)
  | invalidNumber (text : String)
  | invalidBase64
  | unknownEnumValue (enumName value : String)
  | invalidTimestamp (text : String)
  | invalidDuration (text : String)
  | duplicateField (field : String)
  | conflictingOneof (oneof : String)
deriving DecidableEq, Repr

/-- The wording of a decode error.  Of a text that is no JSON it is what the parser of
    JSON texts `said` that counts, and where a key was repeated the parser says where. -/
def DecodeError.message (said : String) : DecodeError → String
  | .invalidWireType code => s!"invalid 'wire type' value: {code}"
  | .invalidFieldNumber number => s!"invalid field number: {number}"
  | .invalidVarint => "invalid leb128 varint"
  | .unexpectedEnd => "unexpected end of buffer"
  | .deprecatedGroup => "deprecated group encoding not supported"
  | .wireTypeMismatch field expected actual =>
    s!"field {field}: expected wire type {expected.label}, found {actual.label}"
  | .invalidText => "invalid UTF-8 in string field"
  | .nestingLimit limit => s!"message nesting exceeds the limit of {limit}"
  | .malformedJson => "invalid JSON: " ++ said
  | .repeatedKey key => "invalid JSON: duplicate key `" ++ key ++ "`" ++ said
  | .unexpectedJson expected => s!"expected a JSON {expected}"
  | .invalidNumber text => s!"invalid number: '{text}'"
  | .invalidBase64 => "invalid base64 string"
  | .unknownEnumValue enumName value => s!"unknown value '{value}' for enum {enumName}"
  | .invalidTimestamp text => s!"invalid timestamp: '{text}'"
  | .invalidDuration text => s!"invalid duration: '{text}'"
  | .duplicateField field => s!"field '{field}' given under both of its names"
  | .conflictingOneof oneof => s!"more than one member of oneof '{oneof}' is set"

/-! ## Writing -/

/-- Why a message has no JSON form: it holds a moment or a span outside the range
    that the text formats cover. -/
inductive EncodeError
  | timestampOutOfRange (seconds nanos : Int)
  | durationOutOfRange (seconds nanos : Int)
deriving DecidableEq, Repr

def EncodeError.message : EncodeError → String
  | .timestampOutOfRange seconds nanos => s!"timestamp out of range: {seconds}s {nanos}ns"
  | .durationOutOfRange seconds nanos => s!"duration out of range: {seconds}s {nanos}ns"

/-- What comes of writing a value that has no text: an error, or the end of the run
    where arithmetic overflows. -/
inductive EncodeFault
  | refused (e : EncodeError)
  | overflow
deriving DecidableEq, Repr

inductive Misuse
  | fieldNumberOutOfRange (number : Nat)
  | notPositioned
  | alreadyRead (field : Nat)
deriving DecidableEq, Repr

def Misuse.message : Misuse → String
  | .fieldNumberOutOfRange number => s!"field number {number} out of range"
  | .notPositioned => "Reader is not positioned on a field, call next_field() first"
  | .alreadyRead field => s!"payload of field {field} was already read"

end Protobuf
