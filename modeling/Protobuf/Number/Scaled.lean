import Protobuf.Number.Literal

/-! # Decimals read in steps

A decimal can be rounded once, to the double-precision number that is nearest to it, or
read in steps: its digits as one number, as long as they fit 64 bits, and that times or divided by
powers of ten.  Each step rounds on its own, so that the outcome may be a neighbour of the
nearest number.

* `Binary64.times`, `Binary64.dividedBy`: the two operations, on magnitudes.
* `Binary64.scaled?`: a number times a power of ten.
* `Significand.read`: the digits that fit 64 bits.
* `Significand.toBinary64?`: a decimal by its digits and its exponent.
-/

namespace Protobuf

namespace Binary64

open FloatFormat (double)

def times (x y : Binary64) : Binary64 :=
  match x.denote, y.denote with
  | .finite _ m e, .finite _ m' e' =>
    ⟨UInt64.ofNat (double.nearestScaled false (m * m') (e + e'))⟩
  | _, _ => infinity false

def dividedBy (x y : Binary64) : Binary64 :=
  match x.denote, y.denote with
  | .finite _ m e, .finite _ m' e' =>
    ⟨UInt64.ofNat (double.nearest false (m * Nat.pow 2 (e - e').toNat)
      (m' * Nat.pow 2 (e' - e).toNat))⟩
  | _, _ => infinity false

def ofNat (n : Nat) : Binary64 := ⟨UInt64.ofNat (double.nearest false n 1)⟩

def tenToThe (k : Nat) : Binary64 := ofNat (Nat.pow 10 k)

def isZero (x : Binary64) : Bool := x.bits = 0

/-- The greatest exponent of a power of ten that is no infinity. -/
def greatestTen : Nat := 308

/-- A magnitude times a power of ten, unless it is too large. -/
def scaled? (x : Binary64) (exponent : Int) : Option Binary64 :=
  if 0 ≤ exponent then
    if exponent ≤ greatestTen then
      let y := x.times (tenToThe exponent.toNat)
      if y.denote.isFinite then some y else none
    else if x.isZero then some x else none
  else if -(greatestTen : Int) ≤ exponent then some (x.dividedBy (tenToThe (-exponent).toNat))
  else if x.isZero then some x
  else scaled? (x.dividedBy (tenToThe greatestTen)) (exponent + greatestTen)
termination_by (-exponent).toNat
decreasing_by
  unfold greatestTen
  omega

def signed (negative : Bool) (x : Binary64) : Binary64 :=
  ⟨UInt64.ofNat (double.withSign negative x.bits.toNat)⟩

end Binary64

namespace Significand

/-- Digits behind those of `n`, as long as the number fits 64 bits, and how many are left
    out behind these. -/
def read (n : Nat) : List Char → Nat × Nat
  | [] => (n, 0)
  | c :: rest =>
    let next := 10 * n + Literal.digitValue c
    if next < 0x1_0000_0000_0000_0000 then read next rest else (n, rest.length + 1)

/-- The exponents that are told apart.  Beyond them a number is too large or zero. -/
def exponentLimit : Nat := 2147483647

/-- The number with these digits and this exponent, unless it is too large.  Digits that are left
    out in front of the point count by their number. -/
def toBinary64? (negative : Bool) (whole fraction : List Char) (exponent : Int) :
    Option Binary64 :=
  let (n, dropped) := read 0 whole
  let (n, unread) := read n fraction
  let magnitude :=
    if exponent.natAbs ≤ exponentLimit then
      (Binary64.ofNat n).scaled? (exponent + dropped - (fraction.length - unread : Nat))
    else if 0 < exponent ∧ n ≠ 0 then none
    else some (Binary64.ofNat 0)
  magnitude.map (·.signed negative)

end Significand

end Protobuf
