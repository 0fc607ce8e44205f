import Protobuf.Wire.Payload
import Protobuf.Number.Binary

/-! # Scalar kinds

The fifteen scalar kinds of fields: what values each has, which value is its
default, and how one value is laid out as a payload.

* `Scalar.Carrier`: the values of a kind.
* `Scalar.put` and `Scalar.ofPayload`: writing and reading one value.
* `Scalar.unpack`: the values of a packed payload, as far as they can be read.
-/

namespace Protobuf

inductive Scalar
  | double
  | float
  | int32
  | int64
  | uint32
  | uint64
  | sint32
  | sint64
  | fixed32
  | fixed64
  | sfixed32
  | sfixed64
  | bool
  | string
  | bytes
deriving DecidableEq, Repr

namespace Scalar

def all : List Scalar :=
  [double, float, int32, int64, uint32, uint64, sint32, sint64, fixed32, fixed64, sfixed32,
    sfixed64, bool, string, bytes]

def name : Scalar → String
  | double => "double"
  | float => "float"
  | int32 => "int32"
  | int64 => "int64"
  | uint32 => "uint32"
  | uint64 => "uint64"
  | sint32 => "sint32"
  | sint64 => "sint64"
  | fixed32 => "fixed32"
  | fixed64 => "fixed64"
  | sfixed32 => "sfixed32"
  | sfixed64 => "sfixed64"
  | bool => "bool"
  | string => "string"
  | bytes => "bytes"

def ofName? (text : String) : Option Scalar := all.find? (·.name = text)

def Carrier : Scalar → Type
  | double => Binary64
  | float => Binary32
  | int32 | sint32 | sfixed32 => Int32
  | int64 | sint64 | sfixed64 => Int64
  | uint32 | fixed32 => UInt32
  | uint64 | fixed64 => UInt64
  | bool => Bool
  | string => String
  | bytes => Bytes

instance : (k : Scalar) → DecidableEq k.Carrier
  | double => inferInstanceAs (DecidableEq Binary64)
  | float => inferInstanceAs (DecidableEq Binary32)
  | int32 | sint32 | sfixed32 => inferInstanceAs (DecidableEq Int32)
  | int64 | sint64 | sfixed64 => inferInstanceAs (DecidableEq Int64)
  | uint32 | fixed32 => inferInstanceAs (DecidableEq UInt32)
  | uint64 | fixed64 => inferInstanceAs (DecidableEq UInt64)
  | bool => inferInstanceAs (DecidableEq Bool)
  | string => inferInstanceAs (DecidableEq String)
  | bytes => inferInstanceAs (DecidableEq (List UInt8))

/-- The value of a field that is not set.  Of the two zeros it is the positive
    one. -/
def default : (k : Scalar) → k.Carrier
  | double => (⟨0⟩ : Binary64)
  | float => (⟨0⟩ : Binary32)
  | int32 | sint32 | sfixed32 => (0 : Int32)
  | int64 | sint64 | sfixed64 => (0 : Int64)
  | uint32 | fixed32 => (0 : UInt32)
  | uint64 | fixed64 => (0 : UInt64)
  | bool => false
  | string => ("" : String)
  | bytes => ([] : List UInt8)

def wireType : Scalar → WireType
  | int32 | int64 | uint32 | uint64 | sint32 | sint64 | bool => .varint
  | double | fixed64 | sfixed64 => .fixed64
  | float | fixed32 | sfixed32 => .fixed32
  | string | bytes => .delimited

/-- Whether many values may share one record.  Delimited kinds may not: their
    values could not be told from a packed list. -/
def isPackable (k : Scalar) : Bool := k.wireType ≠ .delimited

/-! ## Writing -/

/-- An integer reduced to 64 bits, which extends the sign of a negative one. -/
def word64 (n : Int) : Nat := (n % 0x1_0000_0000_0000_0000).toNat

def word32 (n : Int) : Nat := (n % 0x1_0000_0000).toNat

def textBytes (s : String) : Bytes := s.toUTF8.data.toList

/-- The payload of one value.  A negative `int32` is written as the 64-bit integer
    that it equals, ten bytes long. -/
def put : (k : Scalar) → k.Carrier → Bytes
  | double, x => Bytes.ofNat 8 (Binary64.bits x).toNat
  | float, x => Bytes.ofNat 4 (Binary32.bits x).toNat
  | int32, n => Varint.encode (word64 (Int32.toInt n))
  | int64, n => Varint.encode (word64 (Int64.toInt n))
  | uint32, n => Varint.encode (UInt32.toNat n)
  | uint64, n => Varint.encode (UInt64.toNat n)
  | sint32, n => Varint.encode (ZigZag.encode (Int32.toInt n))
  | sint64, n => Varint.encode (ZigZag.encode (Int64.toInt n))
  | fixed32, n => Bytes.ofNat 4 (UInt32.toNat n)
  | fixed64, n => Bytes.ofNat 8 (UInt64.toNat n)
  | sfixed32, n => Bytes.ofNat 4 (word32 (Int32.toInt n))
  | sfixed64, n => Bytes.ofNat 8 (word64 (Int64.toInt n))
  | bool, b => Varint.encode (Bool.toNat b)
  | string, s => delimit (textBytes s)
  | bytes, bs => delimit bs

/-! ## Reading -/

def text? (bs : Bytes) : Option String := String.fromUTF8? ⟨bs.toArray⟩

/-- The value that a payload stands for.  Varint kinds keep the low bits that they
    have room for, so that a field may change between them. -/
def ofPayload : (k : Scalar) → Payload k.wireType → Except DecodeError k.Carrier
  | double, n => .ok (⟨n⟩ : Binary64)
  | float, n => .ok (⟨n⟩ : Binary32)
  | int32, n => .ok (Int32.ofInt (UInt64.toNat n))
  | int64, n => .ok (Int64.ofInt (UInt64.toNat n))
  | uint32, n => .ok (UInt32.ofNat (UInt64.toNat n))
  | uint64, n => .ok (n : UInt64)
  | sint32, n => .ok (Int32.ofInt (ZigZag.decode (UInt64.toNat n % 0x1_0000_0000)))
  | sint64, n => .ok (Int64.ofInt (ZigZag.decode (UInt64.toNat n)))
  | fixed32, n => .ok (n : UInt32)
  | fixed64, n => .ok (n : UInt64)
  | sfixed32, n => .ok (Int32.ofInt (UInt32.toNat n))
  | sfixed64, n => .ok (Int64.ofInt (UInt64.toNat n))
  | bool, n => .ok (decide (UInt64.toNat n ≠ 0))
  | string, bs =>
    match text? bs with
    | some s => .ok s
    | none => .error .invalidText
  | bytes, bs => .ok (bs : List UInt8)

/-- One value at the front of the input, and the bytes left. -/
def take (k : Scalar) (bytes : Bytes) : Except DecodeError k.Carrier × Bytes :=
  match Payload.take k.wireType bytes with
  | (.error e, rest) => (.error e, rest)
  | (.ok p, rest) => (k.ofPayload p, rest)

/-- A value that was read is at least one byte long. -/
theorem take_length_lt {k : Scalar} {bytes rest : Bytes} {v : k.Carrier}
    (h : k.take bytes = (.ok v, rest)) : rest.length < bytes.length := by
  unfold take at h
  split at h
  · simp at h
  · rename_i p rest' heq
    have := Payload.take_length_lt heq
    simp only [Prod.mk.injEq] at h
    rw [← h.2]
    exact this

/-- The values of a packed payload, first to last.  When one cannot be read, those
    before it are returned along with what is wrong. -/
def unpack (k : Scalar) (bytes : Bytes) : Except DecodeError Unit × List k.Carrier :=
  match bytes with
  | [] => (.ok (), [])
  | b :: bs =>
    match _h : k.take (b :: bs) with
    | (.error e, _) => (.error e, [])
    | (.ok v, rest) =>
      let (outcome, vs) := unpack k rest
      (outcome, v :: vs)
termination_by bytes.length
decreasing_by exact take_length_lt _h

def pack (k : Scalar) (vs : List k.Carrier) : Bytes := vs.flatMap k.put

end Scalar

namespace Record

def scalar (r : Record) (k : Scalar) : Except DecodeError k.Carrier :=
  match r.content k.wireType with
  | .ok p => k.ofPayload p
  | .error e => .error e

/-- The values that a record adds to a repeated field of kind `k`: a delimited
    record is a packed list, any other holds one value. -/
def scalars (r : Record) (k : Scalar) : Except DecodeError Unit × List k.Carrier :=
  if k.isPackable ∧ r.wireType = .delimited then
    match r.content .delimited with
    | .ok bytes => k.unpack bytes
    | .error e => (.error e, [])
  else
    match r.scalar k with
    | .ok v => (.ok (), [v])
    | .error e => (.error e, [])

end Record

end Protobuf
