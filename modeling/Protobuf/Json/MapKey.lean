import Protobuf.Error
import Protobuf.Number.Literal
import Protobuf.Wire.Scalar

/-! # Map keys

The keys of a map field are integers, booleans or texts.  As members of a JSON object
they are written as text.

* `MapKey.precedes`: the order in which the entries of a map are kept.
* `MapEntries.insert`: adds an entry or replaces the one with its key.
* `MapKey.toText` and `MapKey.ofText`: the JSON form of a key.
* `MapKey.ofScalar` and `MapKey.toScalar`: the wire form of a key.
-/

namespace Protobuf

inductive MapKey
  | integer (n : Int)
  | boolean (b : Bool)
  | text (s : String)
deriving DecidableEq, Repr

/-- Whether characters stand before others: the first that differ decide, and a text
    stands before its continuations. -/
def charsPrecede : List Char → List Char → Bool
  | [], [] => false
  | [], _ :: _ => true
  | _ :: _, [] => false
  | a :: as, b :: bs => a.toNat < b.toNat || (a == b && charsPrecede as bs)

namespace MapKey

/-- Integers are ordered by value, `false` comes before `true`, and texts are
    compared character by character. -/
def precedes : MapKey → MapKey → Bool
  | integer a, integer b => a < b
  | boolean a, boolean b => !a && b
  | text a, text b => charsPrecede a.toList b.toList
  | integer _, _ => true
  | _, integer _ => false
  | boolean _, text _ => true
  | text _, boolean _ => false

/-! ## Forms of keys, and entries -/

def toText : MapKey → String
  | integer n => toString n
  | boolean b => if b then "true" else "false"
  | text s => s

def range? : Scalar → Option (Int × Int)
  | .int32 | .sint32 | .sfixed32 => some (-0x8000_0000, 0x7FFF_FFFF)
  | .int64 | .sint64 | .sfixed64 => some (-0x8000_0000_0000_0000, 0x7FFF_FFFF_FFFF_FFFF)
  | .uint32 | .fixed32 => some (0, 0xFFFF_FFFF)
  | .uint64 | .fixed64 => some (0, 0xFFFF_FFFF_FFFF_FFFF)
  | _ => none

/-- The key of kind `k` that a text spells.  A text that spells none is called an
    invalid number, for booleans as well. -/
def ofText (k : Scalar) (s : String) : Except DecodeError MapKey :=
  match k with
  | .bool =>
    if s = "true" then .ok (boolean true)
    else if s = "false" then .ok (boolean false)
    else .error (.invalidNumber s)
  | k =>
    match range? k with
    | some (low, high) =>
      match Literal.integerWithin? low high s with
      | some n => .ok (integer n)
      | none => .error (.invalidNumber s)
    | none => .ok (text s)

/-- The key that a value of kind `k` is.  Kinds that cannot be keys have only the
    default text. -/
def ofScalar : (k : Scalar) → k.Carrier → MapKey
  | .int32, n | .sint32, n | .sfixed32, n => integer (Int32.toInt n)
  | .int64, n | .sint64, n | .sfixed64, n => integer (Int64.toInt n)
  | .uint32, n | .fixed32, n => integer (UInt32.toNat n)
  | .uint64, n | .fixed64, n => integer (UInt64.toNat n)
  | .bool, b => boolean b
  | .string, s => text s
  | .double, _ | .float, _ | .bytes, _ => text ""

/-- The value of kind `k` that a key is, and the default for a key of another
    kind. -/
def toScalar : (k : Scalar) → MapKey → k.Carrier
  | .int32, integer n => Int32.ofInt n
  | .sint32, integer n => Int32.ofInt n
  | .sfixed32, integer n => Int32.ofInt n
  | .int64, integer n => Int64.ofInt n
  | .sint64, integer n => Int64.ofInt n
  | .sfixed64, integer n => Int64.ofInt n
  | .uint32, integer n => UInt32.ofNat n.toNat
  | .fixed32, integer n => UInt32.ofNat n.toNat
  | .uint64, integer n => UInt64.ofNat n.toNat
  | .fixed64, integer n => UInt64.ofNat n.toNat
  | .bool, boolean b => b
  | .string, text s => s
  | k, _ => k.default

end MapKey

def MapEntries.insert {β : Type} (key : MapKey) (value : β) :
    List (MapKey × β) → List (MapKey × β)
  | [] => [(key, value)]
  | (k, v) :: rest =>
    if key = k then (key, value) :: rest
    else if key.precedes k then (key, value) :: (k, v) :: rest
    else (k, v) :: MapEntries.insert key value rest

/-- Sets many values, the last one of each key being the one that stays. -/
def MapEntries.insertAll {β : Type} (new old : List (MapKey × β)) : List (MapKey × β) :=
  new.foldl (fun entries e => MapEntries.insert e.1 e.2 entries) old

end Protobuf
