import Protobuf.Json.Printer
import Protobuf.Json.MapKey
import Protobuf.Text.Base64

/-! # The JSON form of scalars and enums

How single values are mapped to JSON and back.  64-bit integers are texts, bytes are
base64, and what is not finite is named.  Reading is more liberal than writing:
integers may be numbers or texts, and enum values names or numbers.

* `Scalar.toJson` and `Scalar.ofJson`: one value of a kind.
* `EnumType.toJson` and `EnumType.ofJson`: one value of an enum.
-/

namespace Protobuf

namespace JsonForm

def maxWide : Int := 0x7FFF_FFFF_FFFF_FFFF_FFFF_FFFF_FFFF_FFFF

/-- The range that a whole number is cut to before it is judged: 128 bits. -/
def saturate (n : Int) : Int := max (-maxWide - 1) (min maxWide n)

def whole? (x : Binary64) : Option Int := x.denote.toInt?.map saturate

/-- A JSON value as a whole number of any size.  Texts are read as integers first,
    and as floating-point numbers, which may have an exponent, only then. -/
def wide : Json → Except DecodeError Int
  | .number (.integer n) => .ok n
  | v@(.number (.float x)) =>
    match whole? x with
    | some n => .ok n
    | none => .error (.invalidNumber v.text)
  | v@(.string s) =>
    match Literal.integerWithin? (-maxWide - 1) maxWide s with
    | some n => .ok n
    | none =>
      match (Literal.float? s).bind whole? with
      | some n => .ok n
      | none => .error (.invalidNumber v.text)
  | _ => .error (.unexpectedJson "integer")

/-- A JSON value as an integer between `low` and `high`. -/
def integer (low high : Int) (v : Json) : Except DecodeError Int :=
  match wide v with
  | .error e => .error e
  | .ok n => if low ≤ n ∧ n ≤ high then .ok n else .error (.invalidNumber (toString n))

/-- The names of the numbers that JSON cannot write. -/
def nonFinite? : FloatValue → Option String
  | .nan => some "NaN"
  | .infinite false => some "Infinity"
  | .infinite true => some "-Infinity"
  | .finite .. => none

/-- A JSON value as a double-precision number.  What is not finite must be named
    exactly. -/
def double : Json → Except DecodeError Binary64
  | .number (.integer n) =>
    .ok ⟨UInt64.ofNat (FloatFormat.double.nearest (decide (n < 0)) n.natAbs 1)⟩
  | .number (.float x) => .ok x
  | .string s =>
    if s = "NaN" then .ok Binary64.nan
    else if s = "Infinity" then .ok (Binary64.infinity false)
    else if s = "-Infinity" then .ok (Binary64.infinity true)
    else
      match Literal.float? s with
      | some x => if x.denote.isFinite then .ok x else .error (.invalidNumber s)
      | none => .error (.invalidNumber s)
  | _ => .error (.unexpectedJson "number")

def maxSingle : Nat := 0xFF_FFFF * Nat.pow 2 104

/-- Whether a finite value is greater in magnitude than a whole number. -/
def exceeds (limit : Nat) : FloatValue → Bool
  | .finite _ m e => if 0 ≤ e then limit < m * Nat.pow 2 e.toNat else limit * Nat.pow 2 (-e).toNat < m
  | _ => false

def plainText (x : Binary64) : String :=
  match Decimal.shortest? .double .up x.denote with
  | some d => d.positional
  | none => ""

/-- A JSON value as a single-precision number.  Finite numbers beyond its range are
    refused, all others are rounded. -/
def single (v : Json) : Except DecodeError Binary32 :=
  match double v with
  | .error e => .error e
  | .ok x =>
    if exceeds maxSingle x.denote then .error (.invalidNumber (plainText x)) else .ok x.toBinary32

def ofDouble (x : Binary64) : Json :=
  match nonFinite? x.denote with
  | some name => .string name
  | none => .number (.float x)

/-- A single-precision number as JSON: its own shortest decimal, so that the digits
    which a wider format would show do not appear. -/
def ofSingle (x : Binary32) : Json :=
  match nonFinite? x.denote with
  | some name => .string name
  | none =>
    match Decimal.shortest? .single .up x.denote with
    | some d => .number (.float d.toBinary64)
    | none => .null

def bytes : Json → Except DecodeError Bytes
  | .string s =>
    match Base64.decodeTolerant? s with
    | some bs => .ok bs
    | none => .error .invalidBase64
  | _ => .error (.unexpectedJson "string")

def text : Json → Except DecodeError String
  | .string s => .ok s
  | _ => .error (.unexpectedJson "string")

def boolean : Json → Except DecodeError Bool
  | .bool b => .ok b
  | _ => .error (.unexpectedJson "boolean")

end JsonForm

/-! ## Scalars -/

namespace Scalar

def toJson : (k : Scalar) → k.Carrier → Json
  | double, x => JsonForm.ofDouble x
  | float, x => JsonForm.ofSingle x
  | int32, n | sint32, n | sfixed32, n => .ofInt (Int32.toInt n)
  | uint32, n | fixed32, n => .ofInt (UInt32.toNat n)
  | int64, n | sint64, n | sfixed64, n => .string (toString (Int64.toInt n))
  | uint64, n | fixed64, n => .string (toString (UInt64.toNat n))
  | bool, b => .bool b
  | string, s => .string s
  | bytes, bs => .string (Base64.encode bs)

def int32OfJson (v : Json) : Except DecodeError Int32 :=
  (JsonForm.integer (-0x8000_0000) 0x7FFF_FFFF v).map Int32.ofInt

def int64OfJson (v : Json) : Except DecodeError Int64 :=
  (JsonForm.integer (-0x8000_0000_0000_0000) 0x7FFF_FFFF_FFFF_FFFF v).map Int64.ofInt

def uint32OfJson (v : Json) : Except DecodeError UInt32 :=
  (JsonForm.integer 0 0xFFFF_FFFF v).map fun n => UInt32.ofNat n.toNat

def uint64OfJson (v : Json) : Except DecodeError UInt64 :=
  (JsonForm.integer 0 0xFFFF_FFFF_FFFF_FFFF v).map fun n => UInt64.ofNat n.toNat

/-- The value of a kind that a JSON value stands for. -/
def ofJson : (k : Scalar) → Json → Except DecodeError k.Carrier
  | double, v => JsonForm.double v
  | float, v => JsonForm.single v
  | int32, v | sint32, v | sfixed32, v => int32OfJson v
  | int64, v | sint64, v | sfixed64, v => int64OfJson v
  | uint32, v | fixed32, v => uint32OfJson v
  | uint64, v | fixed64, v => uint64OfJson v
  | bool, v => JsonForm.boolean v
  | string, v => JsonForm.text v
  | bytes, v => JsonForm.bytes v

end Scalar

/-! ## Enums -/

/-- An enum: its full name and its values in declaration order.  Of two names for
    one number the first is the one that is written. -/
structure EnumType where
  name : String
  values : List (String × Int32)
deriving DecidableEq, Repr

namespace EnumType

def nameOf? (e : EnumType) (number : Int32) : Option String :=
  (e.values.find? (·.2 = number)).map (·.1)

def numberOf? (e : EnumType) (name : String) : Option Int32 :=
  (e.values.find? (·.1 = name)).map (·.2)

/-- The number that stands for an enum that was never set: zero if the enum has it,
    else the first number. -/
def default? (e : EnumType) : Option Int32 :=
  match e.values.find? (·.2 = 0) with
  | some v => some v.2
  | none => e.values.head?.map (·.2)

def toJson (e : EnumType) (number : Int32) : Json :=
  match e.nameOf? number with
  | some name => .string name
  | none => .ofInt number.toInt

def ofJson (e : EnumType) : Json → Except DecodeError Int32
  | .string s =>
    match e.numberOf? s with
    | some n => .ok n
    | none => .error (.unknownEnumValue e.name s)
  | v@(.number _) => Scalar.int32OfJson v
  | _ => .error (.unexpectedJson "enum name or number")

end EnumType

end Protobuf
