import Protobuf.Number.Binary

/-! # Decimals

Decimal numbers as coefficient and exponent, and the two exact conversions between
them and the binary formats.

* `Decimal.round`: the binary number nearest to a decimal.
* `Decimal.shortest?`: of the decimals that round to a binary number, one with the
  fewest digits, and of those the nearest; an exact tie between two neighbours is
  decided by a `TieRule`.
-/

namespace Protobuf

structure Decimal where
  negative : Bool
  coefficient : Nat
  exponent : Int
deriving DecidableEq, Repr

namespace Decimal

/-- The bits of the number of format `fmt` nearest to a decimal.  A decimal whose
    exponent alone puts it beyond every format is not expanded: from `10^400` on
    all are infinite, and below `2^-1200` all are zero. -/
def round (d : Decimal) (fmt : FloatFormat) : Nat :=
  if d.coefficient = 0 then fmt.withSign d.negative 0
  else if 400 < d.exponent then fmt.withSign d.negative fmt.infinity
  else if 0 ≤ d.exponent then fmt.nearest d.negative (d.coefficient * Nat.pow 10 d.exponent.toNat) 1
  else if (d.coefficient.log2 : Int) + 3 * d.exponent < -1201 then fmt.withSign d.negative 0
  else fmt.nearest d.negative d.coefficient (Nat.pow 10 (-d.exponent).toNat)

def toBinary64 (d : Decimal) : Binary64 := ⟨UInt64.ofNat (d.round FloatFormat.double)⟩

/-! ## From binary -/

/-- Which of two neighbours a value exactly half way between them goes to. -/
inductive TieRule
  | toEven
  | up
deriving DecidableEq, Repr

/-- The numbers that round to a value: all strictly between the two ends, and the
    ends themselves if `closed`.  The three are in one unit, `2^scale`. -/
structure RoundingInterval where
  low : Nat
  value : Nat
  high : Nat
  scale : Int
  closed : Bool
deriving Repr

/-- The rounding interval of `m · 2^e`, in quarters of its last place.  Below the
    first number of a binade the spacing is half of what it is above. -/
def interval (fmt : FloatFormat) (m : Nat) (e : Int) : RoundingInterval :=
  let atBinade := m = fmt.hiddenBit ∧ fmt.minExponent < e
  { low := if atBinade then 4 * m - 1 else 4 * m - 2
    value := 4 * m
    high := 4 * m + 2
    scale := e - 2
    closed := m % 2 = 0 }

def onGrid (n : Nat) (scale k : Int) : Nat × Nat :=
  (n * Nat.pow 2 scale.toNat * Nat.pow 10 (-k).toNat,
    Nat.pow 2 (-scale).toNat * Nat.pow 10 k.toNat)

namespace RoundingInterval

def contains (i : RoundingInterval) (d : Nat) (k : Int) : Bool :=
  let (low, den) := onGrid i.low i.scale k
  let (high, _) := onGrid i.high i.scale k
  if i.closed then decide (low ≤ d * den ∧ d * den ≤ high)
  else decide (low < d * den ∧ d * den < high)

/-- The multiple of `10^k` nearest to the value, among its two neighbours on that
    grid that round to it. -/
def nearest? (i : RoundingInterval) (tie : TieRule) (k : Int) : Option Nat :=
  let (num, den) := onGrid i.value i.scale k
  let d := num / den
  let below := decide (0 < d) && i.contains d k
  let above := i.contains (d + 1) k
  if below && above then
    let rest := 2 * (num % den)
    if rest < den then some d
    else if den < rest then some (d + 1)
    else
      match tie with
      | .up => some (d + 1)
      | .toEven => if d % 2 = 0 then some d else some (d + 1)
  else if below then some d
  else if above then some (d + 1)
  else none

def search (i : RoundingInterval) (tie : TieRule) : (steps : Nat) → Int → Nat × Int
  | 0, k => ((i.nearest? tie k).getD 0, k)
  | steps + 1, k =>
    match i.nearest? tie k with
    | some d => (d, k)
    | none => search i tie steps (k - 1)

end RoundingInterval

/-- The greatest power of ten that the search starts from: `10^k` exceeds every
    number below `2^(bits + e)` if `k ≥ (bits + e) / 3`. -/
def searchTop (m : Nat) (e : Int) : Int :=
  if 0 ≤ m.log2 + 1 + e then (m.log2 + 1 + e) / 3 + 1 else (m.log2 + 1 + e) / 4 + 1

/-- The shortest decimal of `±m · 2^e`.  The grids are tried from a power of ten
    above the value down to one that is finer than the spacing of the format. -/
def shortestOf (fmt : FloatFormat) (tie : TieRule) (negative : Bool) (m : Nat) (e : Int) :
    Decimal :=
  if m = 0 then ⟨negative, 0, 0⟩
  else
    let top := searchTop m e
    let steps := (top - min (e / 3 - 1) 0).toNat
    let (d, k) := (interval fmt m e).search tie steps top
    ⟨negative, d, k⟩

/-- The shortest decimal that rounds to a finite value. -/
def shortest? (fmt : FloatFormat) (tie : TieRule) : FloatValue → Option Decimal
  | .finite negative m e => some (shortestOf fmt tie negative m e)
  | _ => none

def digits (n : Nat) : List Char := Nat.toDigits 10 n

/-- A decimal without exponent: all digits written out, and a fraction only if
    there is one. -/
def positional (d : Decimal) : String :=
  let ds := digits d.coefficient
  let sign := if d.negative then "-" else ""
  if 0 ≤ d.exponent then
    sign ++ String.ofList
      (if d.coefficient = 0 then ds else ds ++ List.replicate d.exponent.toNat '0')
  else
    let places := (-d.exponent).toNat
    let padded := List.replicate (places + 1 - ds.length) '0' ++ ds
    let whole := padded.take (padded.length - places)
    let fraction := padded.drop (padded.length - places)
    sign ++ String.ofList (whole ++ '.' :: fraction)

end Decimal

end Protobuf
