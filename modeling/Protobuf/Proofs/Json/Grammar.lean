import Mathlib.Algebra.Group.Int.Defs
import Protobuf.Json.Basic

/-! # The grammar of JSON

Which texts spell which values, told without reading them: blanks may stand around any
value and any key, and each character of a string may be written in any of its ways.
Of the numbers only the integers that fit 64 bits are spelled here, in plain decimal.

* `JsonText.Character`, `JsonText.Quoted`: the ways to write a character and a string.
* `JsonText.Spelled`: the texts of a value, `JsonText.Padded`: with blanks around it.
* `Json.depth`: how deep arrays and objects are nested.
* `Json.keySites`: the keys of a value in the order of its text, each with the object
  that it stands in.
-/

namespace Protobuf

namespace JsonText

def Blank (cs : List Char) : Prop := ∀ c ∈ cs, c = ' ' ∨ c = '\t' ∨ c = '\n' ∨ c = '\r'

def HexDigit (c : Char) (n : Nat) : Prop :=
  "0123456789abcdef".toList[n]? = some c ∨ "0123456789ABCDEF".toList[n]? = some c

inductive CodeUnit : List Char → Nat → Prop
  | intro {a b c d : Char} {w x y z : Nat} (first : HexDigit a w) (second : HexDigit b x)
    (third : HexDigit c y) (fourth : HexDigit d z) :
    CodeUnit [a, b, c, d] (((w * 16 + x) * 16 + y) * 16 + z)

def escapes : List (Char × Char) :=
  [('"', '"'), ('\\', '\\'), ('/', '/'), ('b', '\x08'), ('f', '\x0c'), ('n', '\n'), ('r', '\r'),
    ('t', '\t')]

inductive Character : List Char → Char → Prop
  | plain {c : Char} (visible : 0x20 ≤ c.toNat) (quote : c ≠ '"') (backslash : c ≠ '\\') :
    Character [c] c
  | short {letter c : Char} (h : (letter, c) ∈ escapes) : Character ['\\', letter] c
  | unit {digits : List Char} {c : Char} (h : CodeUnit digits c.toNat) :
    Character ('\\' :: 'u' :: digits) c
  /-- The two halves of a character that one unit is too small for. -/
  | pair {high low : List Char} {c : Char} (large : 0x10000 ≤ c.toNat)
    (first : CodeUnit high (0xD800 + (c.toNat - 0x10000) / 0x400))
    (second : CodeUnit low (0xDC00 + (c.toNat - 0x10000) % 0x400)) :
    Character ('\\' :: 'u' :: high ++ '\\' :: 'u' :: low) c

inductive Characters : List Char → List Char → Prop
  | nil : Characters [] []
  | cons {front more : List Char} {c : Char} {cs : List Char} (first : Character front c)
    (others : Characters more cs) : Characters (front ++ more) (c :: cs)

inductive Quoted : List Char → String → Prop
  | intro {body : List Char} {s : String} (h : Characters body s.toList) :
    Quoted ('"' :: (body ++ ['"'])) s

/-! ## Values -/

mutual

inductive Spelled : List Char → Json → Prop
  | null : Spelled ['n', 'u', 'l', 'l'] .null
  | true : Spelled ['t', 'r', 'u', 'e'] (.bool true)
  | false : Spelled ['f', 'a', 'l', 's', 'e'] (.bool false)
  | integer {n : Int} (low : -2 ^ 63 ≤ n) (high : n < 2 ^ 64) :
    Spelled (toString n).toList (.number (.integer n))
  | string {cs : List Char} {s : String} (h : Quoted cs s) : Spelled cs (.string s)
  | emptyArray {blank : List Char} (h : Blank blank) : Spelled ('[' :: (blank ++ [']'])) (.array [])
  | array {front more : List Char} {v : Json} {items : List Json} (first : Padded front v)
    (others : MoreItems more items) :
    Spelled ('[' :: (front ++ (more ++ [']']))) (.array (v :: items))
  | emptyObject {blank : List Char} (h : Blank blank) :
    Spelled ('\x7b' :: (blank ++ ['\x7d'])) (.object [])
  | object {front more : List Char} {e : String × Json} {members : List (String × Json)}
    (first : Member front e) (others : MoreMembers more members) :
    Spelled ('\x7b' :: (front ++ (more ++ ['\x7d']))) (.object (e :: members))

inductive Padded : List Char → Json → Prop
  | intro {before cs after : List Char} {v : Json} (front : Blank before) (h : Spelled cs v)
    (back : Blank after) : Padded (before ++ (cs ++ after)) v

inductive MoreItems : List Char → List Json → Prop
  | nil : MoreItems [] []
  | cons {front more : List Char} {v : Json} {items : List Json} (first : Padded front v)
    (others : MoreItems more items) : MoreItems (',' :: (front ++ more)) (v :: items)

inductive Member : List Char → String × Json → Prop
  | intro {before key after value : List Char} {name : String} {v : Json} (front : Blank before)
    (named : Quoted key name) (back : Blank after) (h : Padded value v) :
    Member (before ++ (key ++ (after ++ ':' :: value))) (name, v)

inductive MoreMembers : List Char → List (String × Json) → Prop
  | nil : MoreMembers [] []
  | cons {front more : List Char} {e : String × Json} {members : List (String × Json)}
    (first : Member front e) (others : MoreMembers more members) :
    MoreMembers (',' :: (front ++ more)) (e :: members)

end

end JsonText

/-! ## Trees -/

namespace Json

mutual

def depth : Json → Nat
  | .array items => itemsDepth items + 1
  | .object members => membersDepth members + 1
  | .null | .bool _ | .number _ | .string _ => 0

def itemsDepth : List Json → Nat
  | [] => 0
  | v :: rest => max v.depth (itemsDepth rest)

def membersDepth : List (String × Json) → Nat
  | [] => 0
  | (_, v) :: rest => max v.depth (membersDepth rest)

end

mutual

/-- The keys of a value in the order of its text.  An object is told by the way to it: which
    item or member of each array or object around it is gone into. -/
def keySites (path : List Nat) : Json → List (List Nat × String)
  | .array items => itemSites path 0 items
  | .object members => memberSites path 0 members
  | .null | .bool _ | .number _ | .string _ => []

def itemSites (path : List Nat) (i : Nat) : List Json → List (List Nat × String)
  | [] => []
  | v :: rest => v.keySites (path ++ [i]) ++ itemSites path (i + 1) rest

def memberSites (path : List Nat) (i : Nat) : List (String × Json) → List (List Nat × String)
  | [] => []
  | (key, v) :: rest => (path, key) :: (v.keySites (path ++ [i]) ++ memberSites path (i + 1) rest)

end

end Json

end Protobuf
