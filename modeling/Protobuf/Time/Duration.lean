import Protobuf.Error
import Protobuf.Time.Fraction

/-! # Durations

A duration is a signed count of seconds and nanoseconds, both with the sign of the
whole: minus one and a half seconds is -1 and -500000000.  Its text form is
`-1.500s`.

* `Duration.toText`: defined up to about 10,000 years in either direction, and for one number
  of nanoseconds neither defined nor refused.
* `Duration.ofText?`: a whole part, up to nine fraction digits, and the unit.
-/

namespace Protobuf

/-- A span of time, as a signed pair.  No input is out of bounds for the type; the range that has a
    text form is the one that `isValid?` finds. -/
structure Duration where
  seconds : Int64
  nanos : Int32
deriving DecidableEq, Repr

namespace Duration

def maxSeconds : Int := 315576000000

/-- The absolute value of a number, unless it overflows. -/
def magnitude? (n : Int32) : Option Int32 := if n = Int32.minValue then none else some n.abs

def HasOneSign (d : Duration) : Prop :=
  (0 ≤ d.seconds.toInt ∧ 0 ≤ d.nanos.toInt) ∨ (d.seconds.toInt ≤ 0 ∧ d.nanos.toInt ≤ 0)

instance (d : Duration) : Decidable d.HasOneSign := inferInstanceAs (Decidable (_ ∨ _))

/-- Whether a span is in range, its fraction below one second, and its parts of one
    sign.  There is no answer where the magnitude of the fraction overflows, which is asked for
    once the seconds are known to be in range. -/
def isValid? (d : Duration) : Option Bool :=
  if -maxSeconds ≤ d.seconds.toInt ∧ d.seconds.toInt ≤ maxSeconds then
    (magnitude? d.nanos).map fun magnitude => magnitude < 1000000000 && d.HasOneSign
  else some false

def toText (d : Duration) : Except EncodeFault String :=
  match d.isValid? with
  | none => .error .overflow
  | some false => .error (.refused (.durationOutOfRange d.seconds.toInt d.nanos.toInt))
  | some true =>
    let sign := if d.seconds.toInt < 0 ∨ d.nanos.toInt < 0 then ['-'] else []
    .ok (String.ofList (sign ++ Decimal.digits d.seconds.toInt.natAbs ++
      Fraction.text d.nanos.toInt.natAbs ++ ['s']))

def parts? (cs : List Char) : Option (Nat × Nat) :=
  let whole := cs.takeWhile Char.isDigit
  if whole = [] then none
  else
    match cs.dropWhile Char.isDigit with
    | ['s'] => some (Literal.natOfDigits whole, 0)
    | '.' :: rest =>
      let fraction := rest.takeWhile Char.isDigit
      if fraction = [] ∨ 9 < fraction.length then none
      else if rest.dropWhile Char.isDigit = ['s'] then
        some (Literal.natOfDigits whole, Fraction.nanos fraction)
      else none
    | _ => none

/-- The span that a text names, if it is in range.  The sign applies to both parts,
    so that `-0.5s` keeps it. -/
def ofText? (text : String) : Option Duration := do
  let (negative, cs) :=
    match text.toList with
    | '-' :: rest => (true, rest)
    | cs => (false, cs)
  let (seconds, nanos) ← parts? cs
  if maxSeconds < seconds then none
  else
    return ⟨Int64.ofInt (Literal.signed negative seconds),
      Int32.ofInt (Literal.signed negative nanos)⟩

def ofText (text : String) : Except DecodeError Duration :=
  match ofText? text with
  | some d => .ok d
  | none => .error (.invalidDuration text)

end Duration

end Protobuf
