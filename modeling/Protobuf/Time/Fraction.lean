import Protobuf.Number.Literal

/-! # Fractions of a second

Nanoseconds as the digits behind a decimal point.  Written, they take as few groups
of three digits as are exact; read, they take one to nine digits.
-/

namespace Protobuf.Fraction

/-- `n` in decimal, with zeros in front up to a width. -/
def padded (width n : Nat) : List Char :=
  let ds := Decimal.digits n
  List.replicate (width - ds.length) '0' ++ ds

def text (nanos : Nat) : List Char :=
  if nanos = 0 then []
  else if nanos % 1000000 = 0 then '.' :: padded 3 (nanos / 1000000)
  else if nanos % 1000 = 0 then '.' :: padded 6 (nanos / 1000)
  else '.' :: padded 9 nanos

/-- The nanoseconds that up to nine fraction digits stand for. -/
def nanos (ds : List Char) : Nat := Literal.natOfDigits ds * Nat.pow 10 (9 - ds.length)

end Protobuf.Fraction
