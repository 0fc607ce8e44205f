/-! # Binary floating-point numbers

Floating-point values are kept as bit patterns: that is how they travel, and it
keeps every NaN and both zeros apart.  What a pattern denotes, and which pattern
is nearest to a rational number, is said in exact integer arithmetic.

* `Binary32`, `Binary64`: the two formats as domain types.
* `FloatFormat.denote`: the value of a pattern, `±m · 2^e`, an infinity or a NaN.
* `FloatFormat.nearest`: the pattern nearest to `±num / den`, ties to even.
-/

namespace Protobuf

structure Binary32 where
  bits : UInt32
deriving DecidableEq, Repr

structure Binary64 where
  bits : UInt64
deriving DecidableEq, Repr

/-- How a binary format divides its bits: a sign, then the exponent field, then
    the fraction. -/
structure FloatFormat where
  fractionBits : Nat
  exponentBits : Nat
deriving DecidableEq, Repr

/-- What a bit pattern denotes.  A finite value is `±m · 2^e`. -/
inductive FloatValue
  | nan
  | infinite (negative : Bool)
  | finite (negative : Bool) (m : Nat) (e : Int)
deriving DecidableEq, Repr

namespace FloatFormat

def single : FloatFormat := ⟨23, 8⟩

def double : FloatFormat := ⟨52, 11⟩

/-- The weight of the hidden bit: the first integer that needs one bit more than
    the fraction has. -/
def hiddenBit (fmt : FloatFormat) : Nat := Nat.pow 2 fmt.fractionBits

def exponentCount (fmt : FloatFormat) : Nat := Nat.pow 2 fmt.exponentBits

/-- The exponent of the last place of the smallest numbers. -/
def minExponent (fmt : FloatFormat) : Int :=
  2 - (Nat.pow 2 (fmt.exponentBits - 1) : Nat) - fmt.fractionBits

def infinity (fmt : FloatFormat) : Nat := (fmt.exponentCount - 1) * fmt.hiddenBit

def signBit (fmt : FloatFormat) : Nat := fmt.exponentCount * fmt.hiddenBit

def withSign (fmt : FloatFormat) (negative : Bool) (magnitude : Nat) : Nat :=
  if negative then fmt.signBit + magnitude else magnitude

/-- The value of a bit pattern.  The lowest exponent field has no hidden bit, the
    highest one holds the infinities and the NaNs. -/
def denote (fmt : FloatFormat) (bits : Nat) : FloatValue :=
  let negative := decide (bits / fmt.signBit % 2 = 1)
  let field := bits / fmt.hiddenBit % fmt.exponentCount
  let fraction := bits % fmt.hiddenBit
  if field = fmt.exponentCount - 1 then
    if fraction = 0 then .infinite negative else .nan
  else if field = 0 then .finite negative fraction fmt.minExponent
  else .finite negative (fmt.hiddenBit + fraction) (fmt.minExponent + (field - 1 : Nat))

/-- The integer nearest to `num / den`; a half goes to the even neighbour. -/
def roundHalfEven (num den : Nat) : Nat :=
  let q := num / den
  let r := num % den
  if 2 * r < den then q
  else if den < 2 * r then q + 1
  else if q % 2 = 0 then q else q + 1

/-- The greatest `k` with `2^k ≤ num / den`, for positive `num` and `den`. -/
def floorLog2 (num den : Nat) : Int :=
  let k : Int := (num.log2 : Int) - den.log2
  -- The quotient lies between `2^(k-1)` and `2^(k+1)`: one comparison decides.
  if 0 ≤ k then
    if den * Nat.pow 2 k.toNat ≤ num then k else k - 1
  else
    if den ≤ num * Nat.pow 2 (-k).toNat then k else k - 1

/-- `num / den` in units of `2^e`, rounded to the nearest integer. -/
def roundToUnit (num den : Nat) (e : Int) : Nat :=
  if 0 ≤ e then roundHalfEven num (den * Nat.pow 2 e.toNat)
  else roundHalfEven (num * Nat.pow 2 (-e).toNat) den

/-- The magnitude bits of the number nearest to `num / den`.  Read as an integer
    the pattern grows with the value, so that a mantissa that rounds up past its
    last bit carries into the exponent by itself. -/
def nearestMagnitude (fmt : FloatFormat) (num den : Nat) : Nat :=
  if num = 0 then 0
  else
    let e := max fmt.minExponent (floorLog2 num den - fmt.fractionBits)
    let m := roundToUnit num den e
    min fmt.infinity ((e - fmt.minExponent).toNat * fmt.hiddenBit + m)

def nearest (fmt : FloatFormat) (negative : Bool) (num den : Nat) : Nat :=
  fmt.withSign negative (fmt.nearestMagnitude num den)

def nearestScaled (fmt : FloatFormat) (negative : Bool) (m : Nat) (e : Int) : Nat :=
  if 0 ≤ e then fmt.nearest negative (m * Nat.pow 2 e.toNat) 1
  else fmt.nearest negative m (Nat.pow 2 (-e).toNat)

def quietNan (fmt : FloatFormat) : Nat := fmt.infinity + fmt.hiddenBit / 2

/-- The bits, in this format, of a value that another format denotes. -/
def ofValue (fmt : FloatFormat) : FloatValue → Nat
  | .nan => fmt.quietNan
  | .infinite negative => fmt.withSign negative fmt.infinity
  | .finite negative m e => fmt.nearestScaled negative m e

end FloatFormat

/-! ## Whole numbers -/

namespace FloatValue

def toInt? : FloatValue → Option Int
  | .finite negative m e =>
    let magnitude : Option Nat :=
      if 0 ≤ e then some (m * Nat.pow 2 e.toNat)
      else if m % Nat.pow 2 (-e).toNat = 0 then some (m / Nat.pow 2 (-e).toNat) else none
    magnitude.map fun n => if negative then -(n : Int) else (n : Int)
  | _ => none

def isFinite : FloatValue → Bool
  | .finite .. => true
  | _ => false

end FloatValue

namespace Binary32

def denote (x : Binary32) : FloatValue := FloatFormat.single.denote x.bits.toNat

def nan : Binary32 := ⟨UInt32.ofNat FloatFormat.single.quietNan⟩

end Binary32

namespace Binary64

def denote (x : Binary64) : FloatValue := FloatFormat.double.denote x.bits.toNat

def nan : Binary64 := ⟨UInt64.ofNat FloatFormat.double.quietNan⟩

def infinity (negative : Bool) : Binary64 :=
  ⟨UInt64.ofNat (FloatFormat.double.withSign negative FloatFormat.double.infinity)⟩

def toBinary32 (x : Binary64) : Binary32 := ⟨UInt32.ofNat (FloatFormat.single.ofValue x.denote)⟩

end Binary64

end Protobuf
