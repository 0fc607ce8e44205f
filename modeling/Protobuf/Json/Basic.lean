import Protobuf.Number.Decimal
import Protobuf.Error

/-! # JSON values

JSON documents as trees.  Objects keep their members in the order in which they
were first inserted.

* `JsonNumber`: integers that fit 64 bits are exact, all other numbers are
  double-precision.
* `Json.insert`: adds a member or replaces the value of one in its place.
* `Json.field?`: a member under either of two names, `null` counting as absent.
-/

namespace Protobuf

inductive JsonNumber
  | integer (n : Int)
  | float (x : Binary64)
deriving DecidableEq, Repr

inductive Json
  | null
  | bool (b : Bool)
  | number (n : JsonNumber)
  | string (s : String)
  | array (items : List Json)
  | object (members : List (String × Json))
deriving Repr

namespace Json

def isNull : Json → Bool
  | null => true
  | _ => false

def ofInt (n : Int) : Json := .number (.integer n)

/-! ## Objects -/

abbrev Members := List (String × Json)

def Members.find? : Members → String → Option Json
  | [], _ => none
  | (k, v) :: rest, key => if k = key then some v else Members.find? rest key

/-- Sets a key.  A new key goes to the end, a known one keeps its place. -/
def Members.insert : Members → String → Json → Members
  | [], key, value => [(key, value)]
  | (k, v) :: rest, key, value =>
    if k = key then (k, value) :: rest else (k, v) :: Members.insert rest key value

def members : Json → Except DecodeError Members
  | .object ms => .ok ms
  | _ => .error (.unexpectedJson "object")

def Members.present? (ms : Members) (key : String) : Option Json :=
  (ms.find? key).filter fun v => !v.isNull

/-- Looks a field up by its JSON name or the name it has in the schema, and answers
    the key it was found under.  Giving both is an error, `null` counts as absent. -/
def Members.field? (ms : Members) (jsonName protoName : String) :
    Except DecodeError (Option (String × Json)) :=
  match ms.present? jsonName with
  | some v =>
    if protoName ≠ jsonName ∧ (ms.present? protoName).isSome then
      .error (.duplicateField protoName)
    else .ok (some (jsonName, v))
  | none =>
    if protoName = jsonName then .ok none
    else .ok ((ms.present? protoName).map (protoName, ·))

end Json

end Protobuf
