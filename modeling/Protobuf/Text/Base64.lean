import Protobuf.Wire.Varint

/-! # Base64

Bytes as text of four characters for every three bytes, padded to a multiple of
four.

* `encode`: the canonical text, in the standard alphabet with padding.
* `decode?`: accepts the canonical text only.
* `decodeTolerant?`: accepts the URL-safe alphabet and missing padding as well.
-/

namespace Protobuf.Base64

def alphabet : List Char :=
  "ABCDEFGHIJKLMNOPQRSTUVWXYZabcdefghijklmnopqrstuvwxyz0123456789+/".toList

def digit (n : Nat) : Char := alphabet.getD n '='

def value? (c : Char) : Option Nat :=
  if 'A' ≤ c ∧ c ≤ 'Z' then some (c.toNat - 'A'.toNat)
  else if 'a' ≤ c ∧ c ≤ 'z' then some (c.toNat - 'a'.toNat + 26)
  else if '0' ≤ c ∧ c ≤ '9' then some (c.toNat - '0'.toNat + 52)
  else if c = '+' then some 62
  else if c = '/' then some 63
  else none

def encodeChars : Bytes → List Char
  | [] => []
  | [a] => [digit (a.toNat / 4), digit (a.toNat % 4 * 16), '=', '=']
  | [a, b] =>
    [digit (a.toNat / 4), digit (a.toNat % 4 * 16 + b.toNat / 16), digit (b.toNat % 16 * 4), '=']
  | a :: b :: c :: rest =>
    digit (a.toNat / 4) :: digit (a.toNat % 4 * 16 + b.toNat / 16) ::
      digit (b.toNat % 16 * 4 + c.toNat / 64) :: digit (c.toNat % 64) :: encodeChars rest

def encode (bytes : Bytes) : String := String.ofList (encodeChars bytes)

/-! ## Reading -/

def byte (n : Nat) : UInt8 := UInt8.ofNat n

/-- The bytes of a canonical text.  Padding ends the text, and the bits that the last
    character has to spare must be zero. -/
def decode? : List Char → Option Bytes
  | [] => some []
  | a :: b :: c :: d :: rest => do
    let va ← value? a
    let vb ← value? b
    if rest = [] ∧ c = '=' ∧ d = '=' then
      if vb % 16 = 0 then some [byte (va * 4 + vb / 16)] else none
    else
      let vc ← value? c
      if rest = [] ∧ d = '=' then
        if vc % 4 = 0 then some [byte (va * 4 + vb / 16), byte (vb % 16 * 16 + vc / 4)] else none
      else
        let vd ← value? d
        let bytes ← decode? rest
        return byte (va * 4 + vb / 16) :: byte (vb % 16 * 16 + vc / 4) :: byte (vc % 4 * 64 + vd) ::
          bytes
  | _ => none

/-- The character of the standard alphabet that a character of either alphabet
    stands for. -/
def standardChar (c : Char) : Char :=
  if c = '-' then '+' else if c = '_' then '/' else c

def pad (cs : List Char) : List Char := cs ++ List.replicate ((4 - cs.length % 4) % 4) '='

def decodeTolerant? (text : String) : Option Bytes :=
  decode? (pad (text.toList.map standardChar))

end Protobuf.Base64
