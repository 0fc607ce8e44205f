import Protobuf.Error
import Protobuf.Time.Calendar
import Protobuf.Time.Fraction

/-! # Moments in time

A moment is a count of seconds since 1970 in UTC and a fraction in nanoseconds.
Its text form is `1972-01-01T10:00:20.021Z`.

* `Timestamp.toText`: defined for the years 1 to 9999.
* `Timestamp.ofText?`: accepts any offset from UTC, and the inserted second of a leap
  second where one may stand.
-/

namespace Protobuf

/-- A moment.  No input is out of bounds for the type; the range that has a text
    form is `IsValid`. -/
structure Timestamp where
  seconds : Int64
  nanos : Int32
deriving DecidableEq, Repr

namespace Timestamp

/-- 0001-01-01T00:00:00Z. -/
def minSeconds : Int := -62135596800

/-- 9999-12-31T23:59:59Z. -/
def maxSeconds : Int := 253402300799

def daySeconds : Int := 86400

/-- Whether a moment lies in the years 1 to 9999 and its fraction below one second. -/
def IsValid (t : Timestamp) : Prop :=
  minSeconds ≤ t.seconds.toInt ∧ t.seconds.toInt ≤ maxSeconds ∧
    0 ≤ t.nanos.toInt ∧ t.nanos.toInt < 1000000000

instance (t : Timestamp) : Decidable t.IsValid := inferInstanceAs (Decidable (_ ∧ _))

def dateTimeText (date : Date) (second : Nat) : List Char :=
  Fraction.padded 4 date.year.toNat ++ '-' :: Fraction.padded 2 date.month ++
    '-' :: Fraction.padded 2 date.day ++ 'T' :: Fraction.padded 2 (second / 3600) ++
    ':' :: Fraction.padded 2 (second / 60 % 60) ++ ':' :: Fraction.padded 2 (second % 60)

def toText (t : Timestamp) : Except EncodeError String :=
  if t.IsValid then
    let sinceStart := t.seconds.toInt - minSeconds
    .ok (String.ofList (dateTimeText (Date.ofDay (sinceStart / daySeconds))
      (sinceStart % daySeconds).toNat ++ Fraction.text t.nanos.toInt.toNat ++ ['Z']))
  else .error (.timestampOutOfRange t.seconds.toInt t.nanos.toInt)

/-! ## Reading -/

def twoDigits? (a b : Char) : Option Nat := Literal.digits? [a, b]

/-- The offset from UTC at the end of a text, in seconds: `Z`, or hours and minutes
    with a sign. -/
def offset? : List Char → Option Int
  | ['Z'] => some 0
  | [sign, h₁, h₂, ':', m₁, m₂] => do
    let hours ← twoDigits? h₁ h₂
    let minutes ← twoDigits? m₁ m₂
    if 24 ≤ hours ∨ 60 ≤ minutes then none
    else if sign = '+' then some (3600 * hours + 60 * minutes)
    else if sign = '-' then some (-(3600 * hours + 60 * minutes))
    else none
  | _ => none

/-- The fraction and the offset behind the seconds: the nanoseconds and the offset
    in seconds. -/
def tail? : List Char → Option (Nat × Int)
  | '.' :: rest =>
    let ds := rest.takeWhile Char.isDigit
    if ds = [] ∨ 9 < ds.length then none
    else (offset? (rest.dropWhile Char.isDigit)).map (Fraction.nanos ds, ·)
  | rest => (offset? rest).map (0, ·)

structure Fields where
  date : Date
  hour : Nat
  minute : Nat
  second : Nat
  nanos : Nat
  offset : Int

def fields? : List Char → Option Fields
  | y₁ :: y₂ :: y₃ :: y₄ :: '-' :: mo₁ :: mo₂ :: '-' :: d₁ :: d₂ :: 'T' :: h₁ :: h₂ :: ':' ::
      mi₁ :: mi₂ :: ':' :: s₁ :: s₂ :: rest => do
    let year ← Literal.digits? [y₁, y₂, y₃, y₄]
    let month ← twoDigits? mo₁ mo₂
    let day ← twoDigits? d₁ d₂
    let hour ← twoDigits? h₁ h₂
    let minute ← twoDigits? mi₁ mi₂
    let second ← twoDigits? s₁ s₂
    let (nanos, offset) ← tail? rest
    return ⟨⟨year, month, day⟩, hour, minute, second, nanos, offset⟩
  | _ => none

/-- Whether a second, counted from 0001-01-01T00:00:00Z, is the last one of a month
    in UTC: the only place for a leap second. -/
def isMonthEnd (sinceStart : Int) : Bool :=
  sinceStart % daySeconds = daySeconds - 1 ∧ (Date.ofDay (sinceStart / daySeconds)).isMonthEnd

/-- The moment that the parts of a text name, in seconds from 0001-01-01T00:00:00Z
    and nanoseconds.  Second 60 stands for the end of second 59, whatever its
    fraction. -/
def Fields.moment? (f : Fields) : Option (Int × Nat) :=
  if ¬ f.date.IsValid ∨ 24 ≤ f.hour ∨ 60 ≤ f.minute ∨ 61 ≤ f.second then none
  else
    let leap := f.second = 60
    let second := if leap then 59 else f.second
    let sinceStart : Int :=
      f.date.toDay * daySeconds + (3600 * f.hour + 60 * f.minute + second : Nat) - f.offset
    if leap then
      if isMonthEnd sinceStart then some (sinceStart, 999999999) else none
    else some (sinceStart, f.nanos)

def ofText? (text : String) : Option Timestamp := do
  let fields ← fields? text.toList
  let (sinceStart, nanos) ← fields.moment?
  let seconds := sinceStart + minSeconds
  if minSeconds ≤ seconds ∧ seconds ≤ maxSeconds then
    return ⟨Int64.ofInt seconds, Int32.ofInt nanos⟩
  else none

def ofText (text : String) : Except DecodeError Timestamp :=
  match ofText? text with
  | some t => .ok t
  | none => .error (.invalidTimestamp text)

end Timestamp

end Protobuf
