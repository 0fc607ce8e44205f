import Protobuf.Json.Basic

/-! # JSON text

The compact text of a JSON value: no blanks, members in order, and only those
characters escaped that must be.

* `JsonNumber.text`: the shortest digits that read back, in plain or scientific form.
* `Json.text`: the text of a value.
-/

namespace Protobuf

namespace JsonNumber

/-- The powers of ten, of the leading digit, at which a number is written without
    an exponent. -/
def isPlain (e : Int) : Bool := -5 ≤ e ∧ e ≤ 15

/-- A decimal in plain form; a whole number keeps one fractional digit. -/
def plainText (d : Decimal) : String :=
  if 0 ≤ d.exponent then d.positional ++ ".0" else d.positional

/-- A decimal in scientific form: one digit, the rest behind a point, and an
    exponent with its sign. -/
def scientificText (d : Decimal) (e : Int) : String :=
  let fraction := (Decimal.digits d.coefficient).drop 1
  let sign := if d.negative then "-" else ""
  let point := if fraction = [] then "" else "."
  sign ++ String.ofList ((Decimal.digits d.coefficient).take 1) ++ point ++ String.ofList fraction
    ++ (if e < 0 then "e-" else "e+") ++ String.ofList (Decimal.digits e.natAbs)

def decimalText (d : Decimal) : String :=
  let e := d.exponent + (Decimal.digits d.coefficient).length - 1
  if d.coefficient = 0 ∨ isPlain e then plainText d else scientificText d e

def text : JsonNumber → String
  | .integer n => toString n
  | .float x =>
    match Decimal.shortest? .double .toEven x.denote with
    | some d => decimalText d
    | none => "null"

end JsonNumber

namespace Json

/-- A character inside a string.  Quotes, backslashes and control characters are
    escaped, everything else stands for itself. -/
def escapeChar (c : Char) : List Char :=
  if c = '"' then ['\\', '"']
  else if c = '\\' then ['\\', '\\']
  else if c = '\x08' then ['\\', 'b']
  else if c = '\t' then ['\\', 't']
  else if c = '\n' then ['\\', 'n']
  else if c = '\x0c' then ['\\', 'f']
  else if c = '\r' then ['\\', 'r']
  else if c.toNat < 0x20 then
    ['\\', 'u', '0', '0', Nat.digitChar (c.toNat / 16), Nat.digitChar (c.toNat % 16)]
  else [c]

def quote (s : String) : String := String.ofList ('"' :: s.toList.flatMap escapeChar ++ ['"'])

mutual

def text : Json → String
  | .null => "null"
  | .bool true => "true"
  | .bool false => "false"
  | .number n => n.text
  | .string s => quote s
  | .array items => "[" ++ itemsText items ++ "]"
  | .object members => "\x7b" ++ membersText members ++ "\x7d"

def itemsText : List Json → String
  | [] => ""
  | [v] => text v
  | v :: rest => text v ++ "," ++ itemsText rest

def membersText : List (String × Json) → String
  | [] => ""
  | [(k, v)] => quote k ++ ":" ++ text v
  | (k, v) :: rest => quote k ++ ":" ++ text v ++ "," ++ membersText rest

end

end Json

end Protobuf
