/-! # The Gregorian calendar

Dates of the proleptic Gregorian calendar, counted in days from 0001-01-01, which
is day 0.

* `Date.IsValid`: the day exists in its month.
* `Date.toDay` and `Date.ofDay`: a date as a day number and back.
-/

namespace Protobuf

structure Date where
  year : Int
  month : Nat
  day : Nat
deriving DecidableEq, Repr

namespace Date

/-- Every fourth year is a leap year, but of the full centuries only every fourth. -/
def isLeapYear (year : Int) : Bool := year % 4 = 0 ∧ (year % 100 ≠ 0 ∨ year % 400 = 0)

def monthLengths (leap : Bool) : List Nat :=
  [31, if leap then 29 else 28, 31, 30, 31, 30, 31, 31, 30, 31, 30, 31]

def monthLength (year : Int) (month : Nat) : Nat :=
  if month = 0 then 0 else (monthLengths (isLeapYear year)).getD (month - 1) 0

def IsValid (d : Date) : Prop := 1 ≤ d.day ∧ d.day ≤ monthLength d.year d.month

instance (d : Date) : Decidable d.IsValid := inferInstanceAs (Decidable (_ ∧ _))

/-! ## Day numbers -/

/-- The day number of the first day of a year. -/
def yearStart (year : Int) : Int :=
  let before := year - 1
  365 * before + before / 4 - before / 100 + before / 400

def daysBeforeMonth (year : Int) (month : Nat) : Nat :=
  ((monthLengths (isLeapYear year)).take (month - 1)).foldr (· + ·) 0

def toDay (d : Date) : Int := yearStart d.year + daysBeforeMonth d.year d.month + (d.day - 1 : Int)

/-- The month and day of the day at an offset into the months that are left. -/
def monthAndDay : (month : Nat) → (lengths : List Nat) → (offset : Nat) → Nat × Nat
  | month, [], offset => (month, offset + 1)
  | month, length :: rest, offset =>
    if offset < length then (month, offset + 1) else monthAndDay (month + 1) rest (offset - length)

/-- The year of a day number: whole cycles of 400, 100, 4 and 1 years are counted
    off.  The last day of a cycle belongs to its last century or year, which is one
    day longer than the others. -/
def yearOfDay (day : Int) : Int :=
  let cycle := day % 146097
  let century := min (cycle / 36524) 3
  let inCentury := cycle - 36524 * century
  let quad := inCentury / 1461
  let inQuad := inCentury % 1461
  let single := min (inQuad / 365) 3
  400 * (day / 146097) + 100 * century + 4 * quad + single + 1

def ofDay (day : Int) : Date :=
  let year := yearOfDay day
  let (month, d) := monthAndDay 1 (monthLengths (isLeapYear year)) (day - yearStart year).toNat
  ⟨year, month, d⟩

def isMonthEnd (d : Date) : Bool := d.day = monthLength d.year d.month

end Date

end Protobuf
