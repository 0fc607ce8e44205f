import Protobuf.Time.Calendar

/-! # Day numbers are dates

Every day number is that of one date, which exists in the calendar.

* `Date.yearStart_yearOfDay`: how far a day lies behind the first one of its year.
* `Date.monthAndDay_spec`: the month and day at an offset.
* `Date.toDay_ofDay`, `Date.isValid_ofDay`: the date of a day number.
* `Date.year_ofDay`: the years 1 to 9999.
-/

namespace Protobuf.Date

/-- The year of a day, in the whole cycles that are counted off. -/
structure Cycles where
  fours : Int
  centuries : Int
  quads : Int
  singles : Int

namespace Cycles

def ofDay (day : Int) : Cycles :=
  let cycle := day % 146097
  let centuries := min (cycle / 36524) 3
  let inCentury := cycle - 36524 * centuries
  ⟨day / 146097, centuries, inCentury / 1461, min (inCentury % 1461 / 365) 3⟩

def days (c : Cycles) : Int :=
  146097 * c.fours + 36524 * c.centuries + 1461 * c.quads + 365 * c.singles

def years (c : Cycles) : Int := 400 * c.fours + 100 * c.centuries + 4 * c.quads + c.singles

/-- Cycles that are counted off from the greatest to the least. -/
structure Bounded (c : Cycles) : Prop where
  centuries_nonneg : 0 ≤ c.centuries
  centuries_le : c.centuries ≤ 3
  quads_nonneg : 0 ≤ c.quads
  quads_le : c.quads ≤ 24
  singles_nonneg : 0 ≤ c.singles
  singles_le : c.singles ≤ 3

theorem bounded_ofDay (day : Int) : (ofDay day).Bounded := by
  have hcycle := Int.emod_nonneg day (show (146097 : Int) ≠ 0 by decide)
  have hlt := Int.emod_lt_of_pos day (show (0 : Int) < 146097 by decide)
  constructor <;> simp only [ofDay] <;> omega

/-- The days of the cycles are those in front of their years. -/
theorem Bounded.yearStart_years {c : Cycles} (h : c.Bounded) : yearStart (c.years + 1) = c.days := by
  obtain ⟨hc₀, hc, hq₀, hq, hs₀, hs⟩ := h
  -- The leap years in front are counted by these quotients.
  have hfour : c.years / 4 = 100 * c.fours + 25 * c.centuries + c.quads := by
    unfold years; omega
  have hhundred : c.years / 100 = 4 * c.fours + c.centuries := by
    unfold years; omega
  have hfourHundred : c.years / 400 = c.fours := by
    unfold years; omega
  simp only [yearStart, Int.add_sub_cancel, hfour, hhundred, hfourHundred, days]
  unfold years
  omega

end Cycles

/-- The year of a day is the one behind the cycles in front of it. -/
theorem yearOfDay_eq (day : Int) : yearOfDay day = (Cycles.ofDay day).years + 1 := rfl

def yearLength (year : Int) : Nat := if isLeapYear year then 366 else 365

/-- A day lies behind the first one of its year, by less than the length of the year. -/
theorem yearStart_yearOfDay (day : Int) :
    yearStart (yearOfDay day) ≤ day ∧
      day - yearStart (yearOfDay day) < yearLength (yearOfDay day) := by
  have hbounded := Cycles.bounded_ofDay day
  rw [yearOfDay_eq, hbounded.yearStart_years]
  obtain ⟨hc₀, hc, hq₀, hq, hs₀, hs⟩ := hbounded
  have hcycle := Int.emod_nonneg day (show (146097 : Int) ≠ 0 by decide)
  have hlt := Int.emod_lt_of_pos day (show (0 : Int) < 146097 by decide)
  constructor
  · simp only [Cycles.days, Cycles.ofDay]
    omega
  · -- Only the last day of a leap year is 365 days behind the first.
    by_cases hday : day < (Cycles.ofDay day).days + 365
    · unfold yearLength
      split <;> omega
    · have hleap : isLeapYear ((Cycles.ofDay day).years + 1) = true := by
        simp only [isLeapYear, decide_eq_true_eq]
        simp only [Cycles.days, Cycles.years, Cycles.ofDay] at *
        omega
      rw [yearLength, if_pos hleap]
      simp only [Cycles.days, Cycles.ofDay] at *
      omega

/-! ## Months -/

def totalDays (lengths : List Nat) : Nat := lengths.foldr (· + ·) 0

theorem totalDays_monthLengths (leap : Bool) :
    totalDays (monthLengths leap) = if leap then 366 else 365 := by
  cases leap <;> rfl

theorem monthLength_succ (year : Int) (i : Nat) :
    monthLength year (i + 1) = (monthLengths (isLeapYear year)).getD i 0 := by
  rw [monthLength, if_neg (Nat.succ_ne_zero i), Nat.add_sub_cancel]

/-- The month and the day at an offset into months: so many months are passed, and the day
    is one of the next. -/
theorem monthAndDay_spec (month : Nat) {lengths : List Nat} {offset : Nat}
    (h : offset < totalDays lengths) :
    ∃ passed day, monthAndDay month lengths offset = (month + passed, day + 1) ∧
      day < lengths.getD passed 0 ∧ totalDays (lengths.take passed) + day = offset ∧
      passed < lengths.length := by
  -- A month is passed if the offset is not in it, and the rest of the offset goes on.
  induction lengths generalizing month offset with
  | nil => exact absurd h (Nat.not_lt_zero _)
  | cons length rest ih =>
    rw [monthAndDay]
    by_cases hfirst : offset < length
    · exact ⟨0, offset, if_pos hfirst, hfirst, Nat.zero_add _, Nat.succ_pos _⟩
    · have hrest : offset - length < totalDays rest := by
        simp only [totalDays, List.foldr_cons] at h ⊢
        omega
      obtain ⟨passed, day, hmonth, hday, hoffset, hpassed⟩ := ih (month + 1) hrest
      refine ⟨passed + 1, day, ?_, hday, ?_, Nat.succ_lt_succ hpassed⟩
      · rw [if_neg hfirst, hmonth, Nat.add_assoc, Nat.add_comm 1 passed]
      · rw [List.take_succ_cons, totalDays, List.foldr_cons]
        rw [totalDays] at hoffset
        omega

/-! ## Dates -/

/-- The parts of the date of a day. -/
theorem exists_ofDay (day : Int) :
    ∃ passed d, ofDay day = ⟨yearOfDay day, passed + 1, d + 1⟩ ∧ passed < 12 ∧
      d < monthLength (yearOfDay day) (passed + 1) ∧
      (daysBeforeMonth (yearOfDay day) (passed + 1) + d : Int) = day - yearStart (yearOfDay day) := by
  obtain ⟨hstart, hlength⟩ := yearStart_yearOfDay day
  have hoffset : (day - yearStart (yearOfDay day)).toNat <
      totalDays (monthLengths (isLeapYear (yearOfDay day))) := by
    rw [totalDays_monthLengths]
    rw [yearLength] at hlength
    omega
  obtain ⟨passed, d, hmonth, hd, hsum, hpassed⟩ := monthAndDay_spec 1 hoffset
  refine ⟨passed, d, ?_, hpassed, ?_, ?_⟩
  · simp only [ofDay, hmonth, Nat.add_comm 1 passed]
  · rw [monthLength_succ]
    exact hd
  · have hbefore : daysBeforeMonth (yearOfDay day) (passed + 1) =
        totalDays ((monthLengths (isLeapYear (yearOfDay day))).take passed) := rfl
    rw [hbefore]
    omega

/-- The date of a day is that of no other day. -/
theorem toDay_ofDay (day : Int) : (ofDay day).toDay = day := by
  obtain ⟨passed, d, hdate, -, -, hsum⟩ := exists_ofDay day
  rw [hdate, toDay]
  simp only
  omega

/-- The date of a day exists. -/
theorem isValid_ofDay (day : Int) : (ofDay day).IsValid := by
  obtain ⟨passed, d, hdate, -, hd, -⟩ := exists_ofDay day
  rw [hdate]
  exact ⟨Nat.le_add_left 1 d, hd⟩

/-- The month of a date is one of twelve, and no month is longer than 31 days. -/
theorem month_day_ofDay (day : Int) : (ofDay day).month < 100 ∧ (ofDay day).day < 100 := by
  obtain ⟨passed, d, hdate, hpassed, hd, -⟩ := exists_ofDay day
  rw [monthLength_succ] at hd
  have hmonths : ∀ leap : Bool, ∀ i < 12, (monthLengths leap).getD i 0 < 32 := by decide
  have := hmonths (isLeapYear (yearOfDay day)) passed hpassed
  rw [hdate]
  constructor <;> simp only <;> omega

/-- The years 1 to 9999. -/
theorem year_ofDay {day : Int} (hlow : 0 ≤ day) (hhigh : day < 3652059) :
    1 ≤ (ofDay day).year ∧ (ofDay day).year ≤ 9999 := by
  have hbounded := Cycles.bounded_ofDay day
  obtain ⟨hstart, hlength⟩ := yearStart_yearOfDay day
  obtain ⟨passed, d, hdate, -⟩ := exists_ofDay day
  rw [yearOfDay_eq, hbounded.yearStart_years] at hstart
  obtain ⟨hc₀, hc, hq₀, hq, hs₀, hs⟩ := hbounded
  -- The whole cycles bound the year from below, the days in front of it from above.
  have hfours : 0 ≤ (Cycles.ofDay day).fours := Int.ediv_nonneg hlow (by decide)
  rw [hdate]
  simp only [yearOfDay_eq, Cycles.days, Cycles.years] at hstart ⊢
  omega

end Protobuf.Date
