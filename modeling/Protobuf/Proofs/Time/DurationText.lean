import Protobuf.Proofs.Number.Numeral
import Protobuf.Proofs.Time.Fraction
import Protobuf.Time.Duration

/-! # The texts that durations are read from

A duration is read from a numeral without a plus sign or an exponent and with at most nine digits
behind its point, followed by the unit, and it is the span that the numeral says.

* `Numeral.IsSpan`: the numerals that stand in front of the unit.
* `Duration.ofText?_text`, `Duration.exists_of_ofText?`: a numeral is read, and nothing else is.
* `Duration.Denotes`, `Duration.denotes_iff`: the span that a numeral says.
-/

namespace Protobuf

namespace Numeral

/-- A numeral in front of a unit of time: `-?[0-9]+(\.[0-9]{1,9})?`. -/
structure IsSpan (s : Numeral) : Prop where
  sign : s.sign ≠ .plus
  exponent : s.exponent = none
  fraction : ∀ ds ∈ s.fraction, ds.chars.length ≤ 9

def nanos (s : Numeral) : ℕ := Fraction.nanos s.fractionDigits

variable {s : Numeral}

theorem digits_fractionDigits (s : Numeral) : ∀ c ∈ s.fractionDigits, c.isDigit := by
  intro c hc
  unfold fractionDigits at hc
  cases hfraction : s.fraction with
  | none => simp [hfraction] at hc
  | some ds =>
    rw [hfraction] at hc
    exact ds.digits c hc

namespace IsSpan

theorem length_le (h : s.IsSpan) : s.fractionDigits.length ≤ 9 := by
  unfold fractionDigits
  cases hfraction : s.fraction with
  | none => exact Nat.zero_le 9
  | some ds => exact h.fraction ds hfraction

theorem nanos_lt (h : s.IsSpan) : s.nanos < 1000000000 :=
  Fraction.nanos_lt s.digits_fractionDigits h.length_le

theorem unsigned_eq (h : s.IsSpan) : s.unsigned = s.whole.chars ++ s.fractionPart := by
  rw [unsigned, exponentPart, h.exponent, List.append_nil]

/-- A span in nanoseconds. -/
theorem value_mul (h : s.IsSpan) :
    s.value * 10 ^ 9 = (s.sign.apply (s.whole.value * 10 ^ 9 + s.nanos) : ℤ) := by
  have hnanos : (Nat.ofDigitChars 10 s.fractionDigits 0 : ℚ) / 10 ^ s.fractionDigits.length * 10 ^ 9 =
      s.nanos := by
    have hsplit : (10 : ℚ) ^ 9 =
        10 ^ s.fractionDigits.length * 10 ^ (9 - s.fractionDigits.length) := by
      rw [← pow_add, Nat.add_sub_cancel' h.length_le]
    have hpow : (10 : ℚ) ^ s.fractionDigits.length ≠ 0 := by positivity
    have hscale : (s.nanos : ℚ) =
        Nat.ofDigitChars 10 s.fractionDigits 0 * 10 ^ (9 - s.fractionDigits.length) := by
      exact_mod_cast rfl
    rw [hsplit, hscale]
    field_simp
  have hmagnitude : s.magnitude * 10 ^ 9 = (s.whole.value * 10 ^ 9 + s.nanos : ℕ) := by
    have hzero : s.exponentValue = 0 := by rw [exponentValue, h.exponent]; rfl
    rw [magnitude, hzero, zpow_zero, mul_one, add_mul, hnanos]
    push_cast
    rfl
  unfold value
  cases hsign : s.sign with
  | minus =>
    simp only [NumeralSign.isMinus, if_true, neg_mul, hmagnitude, NumeralSign.apply]
    push_cast
    ring
  | none | plus =>
    simp only [NumeralSign.isMinus, Bool.false_eq_true, if_false, hmagnitude, NumeralSign.apply]
    push_cast
    ring

end IsSpan

end Numeral

namespace Duration

variable {s : Numeral} {d : Duration}

theorem parts?_unsigned (h : s.IsSpan) : parts? (s.unsigned ++ ['s']) = some (s.whole.value, s.nanos) := by
  have hunit : ∀ c ∈ ['s'].head?, c.isDigit = false := by
    intro c hc
    cases hc
    rfl
  have hwhole := s.whole.ne_nil
  have hfits := h.fraction
  rw [h.unsigned_eq, List.append_assoc]
  unfold parts? Numeral.nanos Numeral.fractionDigits Numeral.fractionPart
  cases hfraction : s.fraction with
  | none =>
    rw [List.nil_append, s.whole.takeWhile_append hunit, s.whole.dropWhile_append hunit]
    simp only [if_neg hwhole, Literal.natOfDigits_eq]
    rfl
  | some ds =>
    have hpoint : ∀ c ∈ ('.' :: ds.chars ++ ['s']).head?, c.isDigit = false := by
      intro c hc
      cases hc
      rfl
    have hlength : ¬(ds.chars = [] ∨ 9 < ds.chars.length) :=
      not_or.2 ⟨ds.ne_nil, not_lt.2 (hfits ds hfraction)⟩
    rw [s.whole.takeWhile_append hpoint, s.whole.dropWhile_append hpoint]
    simp only [if_neg hwhole, List.cons_append, ds.takeWhile_append hunit, ds.dropWhile_append hunit,
      if_neg hlength, if_true, Literal.natOfDigits_eq]
    rfl

/-- Parts are read from a numeral, whose sign is another matter. -/
theorem exists_of_parts? {cs : List Char} {seconds n : ℕ} {sign : NumeralSign} (hsign : sign ≠ .plus)
    (h : parts? cs = some (seconds, n)) :
    ∃ s : Numeral, s.IsSpan ∧ s.sign = sign ∧ cs = s.unsigned ++ ['s'] ∧
      seconds = s.whole.value ∧ n = s.nanos := by
  unfold parts? at h
  simp only at h
  split at h
  · cases h
  rename_i hne
  obtain ⟨whole, hcs, hwhole⟩ := Literal.exists_digitRun hne
  rw [← hwhole] at h
  split at h
  · -- No fraction: the unit follows the digits.
    rename_i hunit
    cases h
    refine ⟨⟨sign, whole, none, none⟩, ⟨hsign, rfl, by simp⟩, rfl, ?_, ?_, ?_⟩
    · rw [hcs, hunit]
      simp [Numeral.unsigned, Numeral.fractionPart, Numeral.exponentPart]
    · exact Literal.natOfDigits_eq _
    · exact (Nat.zero_mul _).symm
  · rename_i rest hpoint
    split at h
    · cases h
    rename_i hlength
    obtain ⟨hne', hlong⟩ := not_or.1 hlength
    obtain ⟨fraction, hrest, hfraction⟩ := Literal.exists_digitRun hne'
    split at h
    · rename_i hunit
      cases h
      refine ⟨⟨sign, whole, some fraction, none⟩, ⟨hsign, rfl, ?_⟩, rfl, ?_, ?_, ?_⟩
      · intro ds hds
        cases hds
        rw [hfraction]
        exact not_lt.1 hlong
      · rw [hcs, hpoint, hrest, hunit]
        simp [Numeral.unsigned, Numeral.fractionPart, Numeral.exponentPart]
      · exact Literal.natOfDigits_eq _
      · simp only [Numeral.nanos, Numeral.fractionDigits, Option.map_some, Option.getD_some, hfraction]
    · cases h
  · cases h

/-! ## The whole text -/

def ofNumeral (s : Numeral) : Duration :=
  ⟨Int64.ofInt (s.sign.apply s.whole.value), Int32.ofInt (s.sign.apply s.nanos)⟩

theorem toList_text_unit (s : Numeral) : (s.text ++ "s").toList = s.sign.chars ++ (s.unsigned ++ ['s']) := by
  rw [String.toList_append, Numeral.text, String.toList_ofList, List.append_assoc]
  rfl

/-- A minus sign is taken off, and nothing else is. -/
theorem ofText?_eq (text : String) (sign : NumeralSign) (hsign : sign ≠ .plus) {cs : List Char}
    (htext : text.toList = sign.chars ++ cs) (hcs : sign = .none → cs.head? ≠ some '-') :
    ofText? text = (parts? cs).bind fun p =>
      if maxSeconds < p.1 then none
      else some ⟨Int64.ofInt (sign.apply p.1), Int32.ofInt (sign.apply p.2)⟩ := by
  unfold ofText?
  rw [htext]
  cases sign with
  | plus => exact absurd rfl hsign
  | minus => rfl
  | none =>
    simp only [NumeralSign.chars, List.nil_append]
    split
    · exact absurd rfl (hcs rfl)
    · rfl

theorem head?_unsigned (s : Numeral) (rest : List Char) : (s.unsigned ++ rest).head? ≠ some '-' := by
  obtain ⟨c, cs, hcs, hc⟩ := s.whole.exists_cons
  rw [Numeral.unsigned, hcs, List.cons_append, List.cons_append, List.head?_cons]
  rintro ⟨⟩
  cases hc

theorem ofText?_text (h : s.IsSpan) (hmax : s.whole.value ≤ 315576000000) :
    ofText? (s.text ++ "s") = some (ofNumeral s) := by
  rw [ofText?_eq _ s.sign h.sign (toList_text_unit s) fun _ => head?_unsigned s _, parts?_unsigned h]
  have hmax' : ¬maxSeconds < s.whole.value := by
    unfold maxSeconds
    omega
  exact if_neg hmax'

/-- A minus sign in front, or none. -/
theorem exists_sign (cs : List Char) : ∃ sign : NumeralSign, sign ≠ .plus ∧
    ∃ rest, cs = sign.chars ++ rest ∧ (sign = .none → rest.head? ≠ some '-') := by
  by_cases hminus : cs.head? = some '-'
  · obtain ⟨rest, rfl⟩ := List.head?_eq_some_iff.1 hminus
    exact ⟨.minus, nofun, rest, rfl, nofun⟩
  · exact ⟨.none, nofun, cs, rfl, fun _ => hminus⟩

theorem exists_of_ofText? {text : String} (h : ofText? text = some d) :
    ∃ s : Numeral, s.IsSpan ∧ s.whole.value ≤ 315576000000 ∧ text = s.text ++ "s" ∧
      d = ofNumeral s := by
  obtain ⟨sign, hsign, rest, htext, hrest⟩ := exists_sign text.toList
  rw [ofText?_eq text sign hsign htext hrest] at h
  obtain ⟨⟨seconds, n⟩, hparts, hread⟩ := Option.bind_eq_some_iff.1 h
  obtain ⟨s, hspan, rfl, rfl, rfl, rfl⟩ := exists_of_parts? hsign hparts
  split at hread
  · cases hread
  · rename_i hmax
    cases hread
    refine ⟨s, hspan, ?_, ?_, rfl⟩
    · unfold maxSeconds at hmax
      omega
    · rw [← String.toList_inj, htext, toList_text_unit]

theorem ofText_eq_ok_iff {text : String} : ofText text = .ok d ↔ ofText? text = some d := by
  unfold ofText
  cases ofText? text <;> simp

/-! ## What a numeral says -/

def value (d : Duration) : ℚ := d.seconds.toInt + d.nanos.toInt / 10 ^ 9

/-- A span that is what a numeral is worth, less than a second of it in nanoseconds, and with the
    sign of the numeral on both parts. -/
structure Denotes (d : Duration) (s : Numeral) : Prop where
  value : d.value = s.value
  nanos : d.nanos.toInt.natAbs ≤ 999999999
  sign : if s.sign = .minus then d.seconds.toInt ≤ 0 ∧ d.nanos.toInt ≤ 0
    else 0 ≤ d.seconds.toInt ∧ 0 ≤ d.nanos.toInt

theorem natAbs_apply (sign : NumeralSign) (n : ℕ) : (sign.apply n).natAbs = n := by
  cases sign <;> simp [NumeralSign.apply]

theorem seconds_ofNumeral (hmax : s.whole.value ≤ 315576000000) :
    (ofNumeral s).seconds.toInt = s.sign.apply s.whole.value := by
  have habs := natAbs_apply s.sign s.whole.value
  exact Int64.toInt_ofInt_of_le (by omega) (by omega)

theorem nanos_ofNumeral (h : s.IsSpan) : (ofNumeral s).nanos.toInt = s.sign.apply s.nanos := by
  have habs := natAbs_apply s.sign s.nanos
  have hlt := h.nanos_lt
  exact Int32.toInt_ofInt_of_le (by omega) (by omega)

theorem value_eq_iff (h : s.IsSpan) : d.value = s.value ↔
    d.seconds.toInt * 10 ^ 9 + d.nanos.toInt = s.sign.apply (s.whole.value * 10 ^ 9 + s.nanos) := by
  have hbillion : (10 : ℚ) ^ 9 ≠ 0 := by norm_num
  have hd : d.value * 10 ^ 9 = (d.seconds.toInt * 10 ^ 9 + d.nanos.toInt : ℤ) := by
    rw [value]
    push_cast
    ring
  rw [← mul_left_inj' hbillion, hd, h.value_mul, Int.cast_inj]

/-- A numeral within the bounds denotes one span. -/
theorem denotes_iff (h : s.IsSpan) (hmax : s.whole.value ≤ 315576000000) :
    d.Denotes s ↔ d = ofNumeral s := by
  have hlt := h.nanos_lt
  constructor
  · -- Two parts below a second that differ by whole seconds are equal if their signs are.
    rintro ⟨hvalue, hnanos, hsign⟩
    rw [value_eq_iff h] at hvalue
    have hparts : d.seconds.toInt = s.sign.apply s.whole.value ∧
        d.nanos.toInt = s.sign.apply s.nanos := by
      cases hs : s.sign <;> simp [hs, NumeralSign.apply] at hvalue hsign ⊢ <;> omega
    have hseconds := hparts.1.trans (seconds_ofNumeral hmax).symm
    have hnanos' := hparts.2.trans (nanos_ofNumeral h).symm
    obtain ⟨seconds, nanos⟩ := d
    exact congr_arg₂ Duration.mk (Int64.toInt_inj.1 hseconds) (Int32.toInt_inj.1 hnanos')
  · rintro rfl
    refine ⟨?_, ?_, ?_⟩
    · rw [value_eq_iff h, seconds_ofNumeral hmax, nanos_ofNumeral h]
      cases s.sign <;> simp [NumeralSign.apply]
      omega
    · rw [nanos_ofNumeral h, natAbs_apply]
      omega
    · rw [seconds_ofNumeral hmax, nanos_ofNumeral h]
      cases s.sign <;> simp [NumeralSign.apply]

end Duration

end Protobuf
