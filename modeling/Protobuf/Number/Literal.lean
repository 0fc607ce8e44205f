import Protobuf.Number.Decimal

/-! # Numbers in text

Numbers written inside strings follow a grammar of their own, looser than that of
JSON numbers: a plus sign is allowed, and so is a point with digits on one side
only.

* `Literal.integer?`: a sign and digits, nothing else.
* `Literal.float?`: a decimal with an optional exponent, or the name of an infinity
  or of the NaN in any case.
-/

namespace Protobuf

namespace Literal

def digitValue (c : Char) : Nat := c.toNat - '0'.toNat

def natOfDigits (ds : List Char) : Nat := ds.foldl (fun n c => 10 * n + digitValue c) 0

def splitSign : List Char → Bool × List Char
  | '-' :: rest => (true, rest)
  | '+' :: rest => (false, rest)
  | cs => (false, cs)

def digits? (cs : List Char) : Option Nat :=
  if cs ≠ [] ∧ cs.all Char.isDigit then some (natOfDigits cs) else none

def signed (negative : Bool) (n : Nat) : Int := if negative then -(n : Int) else (n : Int)

def integer? (text : String) : Option Int :=
  let (negative, cs) := splitSign text.toList
  (digits? cs).map (signed negative)

/-- An integer between `low` and `high`.  Where no negative number is allowed there
    is no minus sign either, not even before zero. -/
def integerWithin? (low high : Int) (text : String) : Option Int :=
  let (negative, cs) := splitSign text.toList
  if negative ∧ 0 ≤ low then none
  else
    match digits? cs with
    | none => none
    | some n =>
      let n := signed negative n
      if low ≤ n ∧ n ≤ high then some n else none

def exponent? : List Char → Option Int
  | [] => some 0
  | c :: rest =>
    if c = 'e' ∨ c = 'E' then
      let (negative, cs) := splitSign rest
      (digits? cs).map (signed negative)
    else none

/-- An unsigned decimal: digits with an optional point, at least one digit on
    either side of it, then an optional exponent. -/
def decimal? (negative : Bool) (cs : List Char) : Option Decimal :=
  let whole := cs.takeWhile Char.isDigit
  let rest := cs.dropWhile Char.isDigit
  let (fraction, rest) :=
    match rest with
    | '.' :: rest => (rest.takeWhile Char.isDigit, rest.dropWhile Char.isDigit)
    | rest => ([], rest)
  if whole = [] ∧ fraction = [] then none
  else (exponent? rest).map fun e =>
    ⟨negative, natOfDigits (whole ++ fraction), e - fraction.length⟩

/-- A floating-point number in text, rounded to the nearest double-precision
    value. -/
def float? (text : String) : Option Binary64 :=
  let (negative, cs) := splitSign text.toList
  let lower := cs.map Char.toLower
  if lower = "inf".toList ∨ lower = "infinity".toList then some (Binary64.infinity negative)
  else if lower = "nan".toList then some Binary64.nan
  else (decimal? negative cs).map Decimal.toBinary64

end Literal

end Protobuf
