import Protobuf.Proofs.Time.DurationText

/-! # Durations are read from their text

The text of every span in range is read back, with its sign, and no text is read as a span
out of range.  One number of nanoseconds has no absolute value, and asking for the text of a
span with it overflows.

* `Duration.exists_numeral`: the text of a span is a numeral that says it.
* `Duration.ofText_toText`: it is read back.
* `Duration.inRange_of_ofText`: what is read is in range.
* `Duration.ofText_grammar`: the texts that are read, and what they are read as.
* `Duration.toText_exact`: which spans have a text, and which of the texts are read back.
-/

namespace Protobuf.Duration

def InRange (d : Duration) : Prop :=
  d.seconds.toInt.natAbs ≤ 315576000000 ∧ d.nanos.toInt.natAbs ≤ 999999999 ∧
    ((0 ≤ d.seconds.toInt ∧ 0 ≤ d.nanos.toInt) ∨ (d.seconds.toInt ≤ 0 ∧ d.nanos.toInt ≤ 0))

instance (d : Duration) : Decidable d.InRange := inferInstanceAs (Decidable (_ ∧ _))

/-- The nanoseconds have no absolute value, and the seconds are not out of range, so that it is
    asked for. -/
def Overflows (d : Duration) : Prop :=
  d.nanos = Int32.minValue ∧ d.seconds.toInt.natAbs ≤ 315576000000

instance (d : Duration) : Decidable d.Overflows := inferInstanceAs (Decidable (_ ∧ _))

theorem toInt_abs {n : Int32} (h : n ≠ Int32.minValue) : n.abs.toInt = n.toInt.natAbs :=
  BitVec.toInt_abs_eq_natAbs_of_ne_intMin fun hmin => h (Int32.toBitVec_inj.1 hmin)

theorem abs_nanos_lt_iff {n : Int32} (h : n ≠ Int32.minValue) :
    n.abs < 1000000000 ↔ n.toInt.natAbs ≤ 999999999 := by
  have hbound : (1000000000 : Int32).toInt = 1000000000 := rfl
  rw [Int32.lt_iff_toInt_lt, toInt_abs h, hbound]
  omega

/-- The least number is not in range. -/
theorem InRange.nanos_ne {d : Duration} (h : d.InRange) : d.nanos ≠ Int32.minValue := by
  intro hmin
  have hnanos := h.2.1
  rw [hmin] at hnanos
  exact absurd hnanos (by decide)

theorem InRange.not_overflows {d : Duration} (h : d.InRange) : ¬d.Overflows :=
  fun overflows => h.nanos_ne overflows.1

/-- What the check finds: that the span is in range or not, unless it overflows. -/
theorem isValid?_eq (d : Duration) :
    d.isValid? = if d.Overflows then none else some (decide d.InRange) := by
  have hseconds : -maxSeconds ≤ d.seconds.toInt ∧ d.seconds.toInt ≤ maxSeconds ↔
      d.seconds.toInt.natAbs ≤ 315576000000 := by
    unfold maxSeconds
    omega
  unfold isValid? magnitude?
  by_cases hrange : d.seconds.toInt.natAbs ≤ 315576000000
  · rw [if_pos (hseconds.2 hrange)]
    by_cases hmin : d.nanos = Int32.minValue
    · rw [if_pos hmin, if_pos ⟨hmin, hrange⟩]
      rfl
    · rw [if_neg hmin, if_neg fun h => hmin h.1, Option.map_some, Option.some.injEq, Bool.eq_iff_iff]
      simp only [Bool.and_eq_true, decide_eq_true_eq, abs_nanos_lt_iff hmin, InRange, hrange, true_and]
      rfl
  · rw [if_neg (mt hseconds.1 hrange), if_neg fun h => hrange h.2,
      decide_eq_false fun h => hrange h.1]

/-- A span in the documented range has a text. -/
theorem InRange.isValid? {d : Duration} (h : d.InRange) : d.isValid? = some true := by
  rw [isValid?_eq, if_neg h.not_overflows, decide_eq_true h]

/-! ## The text of a span -/

/-- Nanoseconds are written as the fraction of a numeral. -/
theorem exists_isSpan {n : Nat} (h : n < 1000000000) {sign : NumeralSign} (hsign : sign ≠ .plus)
    (whole : DigitRun) :
    ∃ s : Numeral, s.IsSpan ∧ s.sign = sign ∧ s.whole = whole ∧ s.fractionPart = Fraction.text n ∧
      s.nanos = n := by
  rcases Fraction.text_spec h with ⟨rfl, htext⟩ | ⟨ds, hspells⟩
  · refine ⟨⟨sign, whole, none, none⟩, ⟨hsign, rfl, by simp⟩, rfl, rfl, htext.symm, ?_⟩
    exact Nat.zero_mul _
  · refine ⟨⟨sign, whole, some ⟨ds, hspells.ne_nil, hspells.digits⟩, none⟩, ⟨hsign, rfl, ?_⟩, rfl, rfl,
      hspells.point.symm, hspells.nanos⟩
    intro fraction hfraction
    cases hfraction
    exact hspells.length_le

/-- The text of a span in range is a numeral with its unit, and the span is what the numeral
    says. -/
theorem exists_numeral {d : Duration} (h : d.InRange) :
    ∃ s : Numeral, s.IsSpan ∧ s.whole.value ≤ 315576000000 ∧ d.toText = .ok (s.text ++ "s") ∧
      d = ofNumeral s := by
  have hvalid := h.isValid?
  obtain ⟨hseconds, hnanos, hsign⟩ := h
  -- Neither part is positive if one is negative: the sign in front stands for both.
  obtain ⟨sign, hplus, hchars, hparts⟩ : ∃ sign : NumeralSign, sign ≠ .plus ∧
      sign.chars = (if d.seconds.toInt < 0 ∨ d.nanos.toInt < 0 then ['-'] else []) ∧
      sign.apply d.seconds.toInt.natAbs = d.seconds.toInt ∧
        sign.apply d.nanos.toInt.natAbs = d.nanos.toInt := by
    by_cases hneg : d.seconds.toInt < 0 ∨ d.nanos.toInt < 0
    · refine ⟨.minus, by decide, (if_pos hneg).symm, ?_⟩
      simp only [NumeralSign.apply]
      omega
    · refine ⟨.none, by decide, (if_neg hneg).symm, ?_⟩
      simp only [NumeralSign.apply]
      omega
  obtain ⟨s, hspan, rfl, hwhole, hfraction, hn⟩ := exists_isSpan
    (show d.nanos.toInt.natAbs < 1000000000 by omega) hplus (.ofNat d.seconds.toInt.natAbs)
  have hvalue : s.whole.value = d.seconds.toInt.natAbs := by rw [hwhole, DigitRun.value_ofNat]
  refine ⟨s, hspan, hvalue.trans_le hseconds, ?_, ?_⟩
  · simp only [toText, hvalid]
    rw [Except.ok.injEq, ← String.toList_inj, toList_text_unit,
      hspan.unsigned_eq, hwhole, hfraction, hchars, String.toList_ofList]
    simp [DigitRun.ofNat]
  · rw [ofNumeral, hvalue, hn, hparts.1, hparts.2, Int64.ofInt_toInt, Int32.ofInt_toInt]

/-- A span in range is read from its own text. -/
theorem ofText_toText {d : Duration} (h : d.InRange) :
    ∃ s, d.toText = .ok s ∧ ofText s = .ok d := by
  obtain ⟨s, hspan, hmax, htext, hd⟩ := exists_numeral h
  refine ⟨_, htext, ?_⟩
  rw [ofText_eq_ok_iff, ofText?_text hspan hmax, hd]

/-- What is read is in range. -/
theorem inRange_of_ofText {s : String} {d : Duration} (h : ofText s = .ok d) : d.InRange := by
  obtain ⟨s, hspan, hmax, -, rfl⟩ := exists_of_ofText? (ofText_eq_ok_iff.1 h)
  have hlt := hspan.nanos_lt
  unfold InRange
  rw [seconds_ofNumeral hmax, nanos_ofNumeral hspan]
  cases s.sign <;> simp [NumeralSign.apply] <;> omega

/-- A text is read exactly if it is a numeral of the grammar with its unit whose whole part is in
    range, and then as the span that the numeral denotes.  Any other text is named in the error.
    What was read is written as a text that is read as the same span. -/
theorem ofText_grammar (text : String) :
    (∀ d, ofText text = .ok d ↔
      ∃ s : Numeral, s.IsSpan ∧ s.whole.value ≤ 315576000000 ∧ text = s.text ++ "s" ∧ d.Denotes s) ∧
    ((∃ d, ofText text = .ok d) ↔
      ∃ s : Numeral, s.IsSpan ∧ s.whole.value ≤ 315576000000 ∧ text = s.text ++ "s") ∧
    ((¬∃ d, ofText text = .ok d) → ofText text = .error (.invalidDuration text)) ∧
    ∀ d, ofText text = .ok d → ∃ written, d.toText = .ok written ∧ ofText written = .ok d := by
  refine ⟨?_, ?_, ?_, ?_⟩
  · intro d
    constructor
    · intro hread
      obtain ⟨s, hspan, hmax, htext, hd⟩ := exists_of_ofText? (ofText_eq_ok_iff.1 hread)
      exact ⟨s, hspan, hmax, htext, (denotes_iff hspan hmax).2 hd⟩
    · rintro ⟨s, hspan, hmax, rfl, hd⟩
      rw [(denotes_iff hspan hmax).1 hd]
      exact ofText_eq_ok_iff.2 (ofText?_text hspan hmax)
  · constructor
    · rintro ⟨d, hread⟩
      obtain ⟨s, hspan, hmax, htext, -⟩ := exists_of_ofText? (ofText_eq_ok_iff.1 hread)
      exact ⟨s, hspan, hmax, htext⟩
    · rintro ⟨s, hspan, hmax, rfl⟩
      exact ⟨_, ofText_eq_ok_iff.2 (ofText?_text hspan hmax)⟩
  · intro hnone
    unfold ofText at hnone ⊢
    cases hread : ofText? text with
    | none => rfl
    | some d => exact absurd ⟨d, by rw [hread]⟩ hnone
  · intro d hread
    -- What is read is in range, and whatever is in range survives being written.
    exact ofText_toText (inRange_of_ofText hread)

/-! ## Spans out of range -/

/-- What asking for the text of a span comes to. -/
theorem toText_cases (d : Duration) :
    d.Overflows ∧ d.toText = .error .overflow ∨
      d.InRange ∧ (∃ s, d.toText = .ok s) ∨
      ¬d.Overflows ∧ ¬d.InRange ∧
        d.toText = .error (.refused (.durationOutOfRange d.seconds.toInt d.nanos.toInt)) := by
  have hvalid := isValid?_eq d
  unfold toText
  split_ifs at hvalid with hoverflows
  · rw [hvalid]
    exact .inl ⟨hoverflows, rfl⟩
  · by_cases hrange : d.InRange
    · rw [hvalid, decide_eq_true hrange]
      exact .inr (.inl ⟨hrange, _, rfl⟩)
    · rw [hvalid, decide_eq_false hrange]
      exact .inr (.inr ⟨hoverflows, hrange, rfl⟩)

theorem toText_eq_overflow_iff {d : Duration} : d.toText = .error .overflow ↔ d.Overflows := by
  rcases toText_cases d with ⟨hoverflows, htext⟩ | ⟨hrange, s, htext⟩ | ⟨hnot, -, htext⟩
  · exact iff_of_true htext hoverflows
  · rw [htext]
    exact iff_of_false (by simp) hrange.not_overflows
  · rw [htext]
    exact iff_of_false (by simp) hnot

/-- Asking for the text of a span overflows exactly if its nanoseconds are the least number and its
    seconds in range.  Otherwise there is a text exactly if the span is in range, which is read
    back, and an error that names the span if it is not. -/
theorem toText_exact (d : Duration) :
    (d.toText = .error .overflow ↔ d.Overflows) ∧
      ((∃ s, d.toText = .ok s) ↔ d.InRange) ∧
      (∀ s, d.toText = .ok s → ofText s = .ok d) ∧
      ∀ e, d.toText = .error (.refused e) ↔
        ¬d.Overflows ∧ ¬d.InRange ∧ e = .durationOutOfRange d.seconds.toInt d.nanos.toInt := by
  refine ⟨toText_eq_overflow_iff, ?_⟩
  rcases toText_cases d with ⟨hoverflows, htext⟩ | ⟨hrange, s, htext⟩ | ⟨hnot, hrange, htext⟩
  · have hrange : ¬d.InRange := fun h => h.not_overflows hoverflows
    simp only [htext]
    exact ⟨iff_of_false (by simp) hrange, by simp,
      fun e => iff_of_false (by simp) fun h => h.1 hoverflows⟩
  · obtain ⟨s', hs', hread⟩ := ofText_toText hrange
    simp only [htext] at hs' ⊢
    cases hs'
    refine ⟨iff_of_true ⟨s, rfl⟩ hrange, ?_, fun e => iff_of_false (by simp) fun h => h.2.1 hrange⟩
    rintro s' ⟨⟩
    exact hread
  · simp only [htext]
    refine ⟨iff_of_false (by simp) hrange, by simp, fun e => ?_⟩
    simp only [hnot, hrange, not_false_eq_true, true_and, Except.error.injEq, EncodeFault.refused.injEq]
    exact eq_comm

/-- The span is out of range, and asking for its text does not come to an error. -/
theorem toText_least : (Duration.mk 0 Int32.minValue).toText = .error .overflow ∧
    ¬(Duration.mk 0 Int32.minValue).InRange :=
  ⟨rfl, by decide⟩

end Protobuf.Duration
