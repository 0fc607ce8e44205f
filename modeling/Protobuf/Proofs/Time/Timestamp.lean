import Protobuf.Proofs.Time.Calendar
import Protobuf.Proofs.Time.Fraction
import Protobuf.Time.Timestamp

/-! # Moments are read from their text

The text of every moment in range is read back, to the nanosecond.

* `Timestamp.tail?_text`: the fraction and the offset.
* `Timestamp.fields?_dateTimeText`: the parts of a text.
* `Timestamp.ofText_ofDay`: a day, a second in it and an offset.
* `Timestamp.ofText_toText`: the whole text.
-/

namespace Protobuf.Timestamp

def InRange (t : Timestamp) : Prop :=
  -62135596800 ≤ t.seconds.toInt ∧ t.seconds.toInt ≤ 253402300799 ∧
    0 ≤ t.nanos.toInt ∧ t.nanos.toInt ≤ 999999999

instance (t : Timestamp) : Decidable t.InRange := inferInstanceAs (Decidable (_ ∧ _))

/-- A moment in the documented range has a text. -/
theorem InRange.isValid {t : Timestamp} (h : t.InRange) : t.IsValid := by
  obtain ⟨hlow, hhigh, hnanos, hnanos'⟩ := h
  exact ⟨hlow, hhigh, hnanos, Int.lt_of_le_sub_one hnanos'⟩

/-! ## The text of a moment -/

/-- The fraction and the offset behind the seconds are read back. -/
theorem tail?_text {n : Nat} (h : n < 1000000000) {c : Char} {cs : List Char} {offset : Int}
    (hc : c.isDigit = false) (hpoint : c ≠ '.') (hoffset : offset? (c :: cs) = some offset) :
    tail? (Fraction.text n ++ c :: cs) = some (n, offset) := by
  rcases Fraction.text_spec h with ⟨rfl, htext⟩ | ⟨ds, hspells⟩
  · rw [htext, List.nil_append]
    unfold tail?
    split
    · rename_i hsplit
      obtain ⟨rfl, -⟩ := List.cons.inj hsplit
      exact absurd rfl hpoint
    · rw [hoffset]
      rfl
  · rw [hspells.point, List.cons_append, tail?]
    simp only [Literal.takeWhile_digits hspells.digits hc,
      Literal.dropWhile_digits hspells.digits hc]
    rw [if_neg hspells.fits, hspells.nanos, hoffset]
    rfl

/-- The parts of a text are read back. -/
theorem fields?_dateTimeText {date : Date} {second n : Nat} {rest : List Char} {offset : Int}
    (hyear : date.year.toNat < 10000) (hmonth : date.month < 100) (hday : date.day < 100)
    (hsecond : second < 86400) (hrest : tail? rest = some (n, offset)) :
    fields? (dateTimeText date second ++ rest) =
      some ⟨⟨date.year.toNat, date.month, date.day⟩, second / 3600, second / 60 % 60, second % 60,
        n, offset⟩ := by
  -- The reader takes the text apart by position, so each part is named by its digits.
  obtain ⟨y₁, y₂, y₃, y₄, hy, hyear⟩ := Fraction.exists_four_digits hyear
  obtain ⟨mo₁, mo₂, hmo, hmonth⟩ := Fraction.exists_two_digits hmonth
  obtain ⟨d₁, d₂, hd, hday⟩ := Fraction.exists_two_digits hday
  obtain ⟨h₁, h₂, hh, hhour⟩ := Fraction.exists_two_digits (show second / 3600 < 100 by omega)
  obtain ⟨mi₁, mi₂, hmi, hminute⟩ :=
    Fraction.exists_two_digits (show second / 60 % 60 < 100 by omega)
  obtain ⟨s₁, s₂, hs, hsec⟩ := Fraction.exists_two_digits (show second % 60 < 100 by omega)
  have htext : dateTimeText date second ++ rest =
      y₁ :: y₂ :: y₃ :: y₄ :: '-' :: mo₁ :: mo₂ :: '-' :: d₁ :: d₂ :: 'T' :: h₁ :: h₂ :: ':' ::
        mi₁ :: mi₂ :: ':' :: s₁ :: s₂ :: rest := by
    simp only [dateTimeText, hy, hmo, hd, hh, hmi, hs, List.cons_append, List.nil_append]
  rw [htext, fields?]
  simp [hyear, twoDigits?, hmonth, hday, hhour, hminute, hsec, hrest]

/-- The parts of the text of a moment name it. -/
theorem moment?_of_isValid {date : Date} {second n : Nat} {offset : Int} (hdate : date.IsValid)
    (hsecond : second < 86400) :
    Fields.moment? ⟨date, second / 3600, second / 60 % 60, second % 60, n, offset⟩ =
      some (date.toDay * daySeconds + second - offset, n) := by
  have hrange : ¬(¬date.IsValid ∨ 24 ≤ second / 3600 ∨ 60 ≤ second / 60 % 60 ∨ 61 ≤ second % 60) := by
    rintro (hinvalid | hhour | hminute | hsecond)
    · exact hinvalid hdate
    · omega
    · omega
    · omega
  -- The text of a moment never names a leap second, though one is read.
  have hleap : ¬second % 60 = 60 := by omega
  simp only [Fields.moment?, if_neg hrange, if_neg hleap]
  congr 2
  omega

/-- The text of a day and a second in it, with an offset behind it, is read as the moment that is
    so far from the start of the first year. -/
theorem ofText_ofDay {t : Timestamp} (h : t.IsValid) {day : Int} {second : Nat} {rest : List Char}
    {offset : Int} (hyear : 1 ≤ (Date.ofDay day).year ∧ (Date.ofDay day).year ≤ 9999)
    (hsecond : second < 86400) (hrest : tail? rest = some (t.nanos.toInt.toNat, offset))
    (hseconds : day * daySeconds + second - offset + minSeconds = t.seconds.toInt) :
    ofText (String.ofList (dateTimeText (Date.ofDay day) second ++ rest)) = .ok t := by
  obtain ⟨hlow, hhigh, hnanos, -⟩ := h
  obtain ⟨hmonth, hmonthDay⟩ := Date.month_day_ofDay day
  have hfields := fields?_dateTimeText (show (Date.ofDay day).year.toNat < 10000 by omega) hmonth
    hmonthDay hsecond hrest
  have hdate : (⟨(Date.ofDay day).year.toNat, (Date.ofDay day).month, (Date.ofDay day).day⟩ : Date) =
      Date.ofDay day := by
    rw [Int.toNat_of_nonneg (by omega)]
  have hback : Int64.ofInt t.seconds.toInt = t.seconds := Int64.ofInt_toInt _
  have hnanosBack : Int32.ofInt (t.nanos.toInt.toNat : Nat) = t.nanos := by
    rw [Int.toNat_of_nonneg hnanos, Int32.ofInt_toInt]
  unfold ofText ofText?
  simp only [String.toList_ofList, hfields, hdate, moment?_of_isValid (Date.isValid_ofDay day) hsecond,
    Date.toDay_ofDay, hseconds, Option.bind_eq_bind, Option.bind_some, if_pos (And.intro hlow hhigh),
    hback, hnanosBack]
  rfl

/-- A moment in range is read from its own text. -/
theorem ofText_toText {t : Timestamp} (h : t.InRange) :
    ∃ s, t.toText = .ok s ∧ ofText s = .ok t := by
  have hvalid := h.isValid
  refine ⟨_, if_pos hvalid, ?_⟩
  obtain ⟨hlow, hhigh, hnanos, hnanos'⟩ := h
  have htail : tail? (Fraction.text t.nanos.toInt.toNat ++ ['Z']) = some (t.nanos.toInt.toNat, 0) :=
    tail?_text (by omega) (by decide) (by decide) rfl
  rw [List.append_assoc]
  -- Seconds are counted from the year 1 on, where days and dates start.
  refine ofText_ofDay hvalid (Date.year_ofDay ?_ ?_) ?_ htail ?_
  · unfold minSeconds daySeconds
    omega
  · unfold minSeconds daySeconds
    omega
  · unfold daySeconds
    omega
  · unfold minSeconds daySeconds
    omega

end Protobuf.Timestamp
