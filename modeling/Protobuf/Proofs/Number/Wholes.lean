import Protobuf.Json.ScalarForm
import Protobuf.Proofs.Number.Narrowing
import Protobuf.Proofs.Number.Numeral

/-! # Whole numbers by way of double precision

A numeral is read as the double-precision number nearest to it, and that may be whole though the
numeral is not, or another whole number than the numeral.

* `FloatFormat.Rounds`: a number and the nearest number of a format, with their signs.
* `FloatFormat.Rounds.eq_of_whole`: whole numbers up to `2^53` are their own nearest numbers.
* `Numeral.whole?_toBinary64_iff`: the whole number that a numeral is read as.
-/

namespace Protobuf

namespace FloatFormat

variable {fmt : FloatFormat} {x y z : ℚ}

/-- A number and the number of a format nearest to it, as if the format had no greatest one. -/
def Rounds (fmt : FloatFormat) (x y : ℚ) : Prop :=
  ∃ n e, fmt.Nearest |x| n e ∧ (0 ≤ x ∧ y = n * 2 ^ e ∨ x ≤ 0 ∧ y = -(n * 2 ^ e))

namespace Rounds

theorem abs_eq (h : fmt.Rounds x y) : ∃ n e, fmt.Nearest |x| n e ∧ |y| = (n : ℚ) * 2 ^ e := by
  obtain ⟨n, e, hnearest, ⟨-, rfl⟩ | ⟨-, rfl⟩⟩ := h
  · exact ⟨n, e, hnearest, abs_of_nonneg (by positivity)⟩
  · refine ⟨n, e, hnearest, ?_⟩
    rw [abs_neg]
    exact abs_of_nonneg (by positivity)

/-- What is not tiny is not rounded to less than half of it. -/
theorem abs_le_two_mul (h : FloatFormat.double.Rounds x y) (hx : 1 ≤ |x|) : |x| ≤ 2 * |y| := by
  obtain ⟨n, e, hnearest, hy⟩ := h.abs_eq
  -- The last place is at least `2^-52`, so the mantissa has its hidden bit.
  have hhidden : 2 ^ 52 ≤ n := by
    rcases hnearest.hidden with hhidden | hmin
    · rwa [hiddenBit_double] at hhidden
    · have hlt := hx.trans_lt hnearest.lt
      rw [hmin, fractionBits_double, minExponent_double, ← zpow_zero (2 : ℚ)] at hlt
      have hpowers := (zpow_lt_zpow_iff_right₀ one_lt_two).1 hlt
      omega
  have hlt := hnearest.lt
  rw [fractionBits_double] at hlt
  have hsplit : (2 : ℚ) ^ (e + 52 + 1) = 2 * (2 ^ 52 * 2 ^ e) := by
    rw [zpow_add_one₀ two_ne_zero, zpow_add₀ two_ne_zero]
    norm_num
    ring
  have hmantissa : (2 : ℚ) ^ 52 ≤ n := by exact_mod_cast hhidden
  calc |x| ≤ 2 * (2 ^ 52 * 2 ^ e) := (hlt.trans_eq hsplit).le
    _ ≤ 2 * (n * 2 ^ e) := by gcongr
    _ = 2 * |y| := by rw [hy]

/-- Whole numbers up to `2^53` are rounded to themselves. -/
theorem eq_of_whole {k : ℤ} (h : FloatFormat.double.Rounds k y) (hk : |k| ≤ 2 ^ 53) : y = k := by
  obtain ⟨n, e, hnearest, hy⟩ := h
  obtain ⟨l, hl⟩ : ∃ l : ℕ, |k| = l := ⟨k.natAbs, Int.abs_eq_natAbs k⟩
  have hvalue : |(k : ℚ)| = l := by rw [← Int.cast_abs, hl, Int.cast_natCast]
  rw [hvalue] at hnearest
  have hexact : (n : ℚ) * 2 ^ e = l := by
    by_cases hfine : e ≤ 0
    · have hone : (l : ℚ) = l * 2 ^ (0 : ℤ) := by rw [zpow_zero, mul_one]
      rw [hone]
      exact le_antisymm (hnearest.le_of_le hfine hone.le) (hnearest.ge_of_ge hfine hone.ge)
    · -- Only `2^53` itself has a last place above one, and that divides it.
      have hlow := hnearest.le.resolve_left (by rw [minExponent_double]; omega)
      have hhigh : (l : ℚ) ≤ 2 ^ (53 : ℤ) := by
        have hle : (l : ℤ) ≤ 2 ^ 53 := hl ▸ hk
        exact_mod_cast hle
      rw [fractionBits_double] at hlow
      have hpowers := (zpow_le_zpow_iff_right₀ one_lt_two).1 (hlow.trans hhigh)
      obtain rfl : e = 1 := by omega
      have htop : (l : ℚ) = ((2 ^ 52 : ℕ) : ℚ) * 2 ^ (1 : ℤ) := by
        refine le_antisymm (hhigh.trans_eq ?_) (Eq.trans_le ?_ hlow)
        · norm_num
        · norm_num
      rw [htop]
      exact le_antisymm (hnearest.le_of_le le_rfl htop.le) (hnearest.ge_of_ge le_rfl htop.ge)
  rw [hexact, ← hvalue] at hy
  rcases hy with ⟨hnonneg, rfl⟩ | ⟨hnonpos, rfl⟩
  · exact abs_of_nonneg hnonneg
  · rw [abs_of_nonpos hnonpos, neg_neg]

end Rounds

/-- What is beyond all numbers is at least `2^1023`. -/
theorem Nearest.le_of_beyond {n : ℕ} {e : ℤ} (h : FloatFormat.double.Nearest x n e)
    (hbeyond : FloatFormat.double.infinity ≤ FloatFormat.double.pattern n e) :
    2 ^ (1023 : ℤ) ≤ (n : ℚ) * 2 ^ e := by
  have hfits := h.le_two_mul
  have hhidden := h.hidden
  rw [hiddenBit_double] at hfits hhidden
  rw [minExponent_double] at hhidden
  rw [infinity_double, pattern, hiddenBit_double, minExponent_double] at hbeyond
  have hmantissa : (2 : ℚ) ^ (52 : ℤ) ≤ n := by
    have hle : 2 ^ 52 ≤ n := by omega
    exact_mod_cast hle
  calc (2 : ℚ) ^ (1023 : ℤ) = 2 ^ (52 : ℤ) * 2 ^ (971 : ℤ) := by
        rw [← zpow_add₀ two_ne_zero]
        rfl
    _ ≤ n * 2 ^ e := by
      gcongr
      · exact one_le_two
      · omega

end FloatFormat

/-! ## Whole values -/

def FloatValue.wholeMagnitude? (m : ℕ) (e : ℤ) : Option ℕ :=
  if 0 ≤ e then some (m * Nat.pow 2 e.toNat)
  else if m % Nat.pow 2 (-e).toNat = 0 then some (m / Nat.pow 2 (-e).toNat) else none

theorem FloatValue.wholeMagnitude?_eq_some_iff {m l : ℕ} {e : ℤ} :
    wholeMagnitude? m e = some l ↔ (l : ℚ) = m * 2 ^ e := by
  unfold wholeMagnitude?
  split
  · rename_i hnonneg
    have hvalue : ((m * Nat.pow 2 e.toNat : ℕ) : ℚ) = m * 2 ^ e := by
      rw [Nat.cast_mul, cast_pow_toNat 2 hnonneg]
      rfl
    rw [Option.some.injEq, ← hvalue, Nat.cast_inj, eq_comm]
  · rename_i hnegative
    have hpos : 0 < Nat.pow 2 (-e).toNat := Nat.two_pow_pos _
    have hpos' : ((Nat.pow 2 (-e).toNat : ℕ) : ℚ) ≠ 0 := by exact_mod_cast hpos.ne'
    have hunit : ((Nat.pow 2 (-e).toNat : ℕ) : ℚ) = (2 ^ e)⁻¹ := cast_pow_neg_toNat 2 (by omega)
    have hvalue : (l : ℚ) = m * 2 ^ e ↔ l * Nat.pow 2 (-e).toNat = m := by
      rw [← inv_inv ((2 : ℚ) ^ e), ← hunit, ← div_eq_mul_inv, eq_div_iff hpos']
      exact_mod_cast Iff.rfl
    rw [hvalue]
    constructor
    · intro hread
      split at hread
      · rename_i hdivides
        cases hread
        exact Nat.div_mul_cancel (Nat.dvd_of_mod_eq_zero hdivides)
      · cases hread
    · rintro rfl
      rw [if_pos (Nat.mul_mod_left ..), Nat.mul_div_cancel _ hpos]

theorem FloatValue.toInt?_eq_some_iff {negative : Bool} {m : ℕ} {e k : ℤ} :
    (FloatValue.finite negative m e).toInt? = some k ↔
      (k : ℚ) = if negative then -((m : ℚ) * 2 ^ e) else (m : ℚ) * 2 ^ e := by
  have hread : (FloatValue.finite negative m e).toInt? =
      (wholeMagnitude? m e).map fun n : ℕ => if negative then -(n : ℤ) else n := by
    unfold toInt?
    simp only
    rw [← wholeMagnitude?]
    cases wholeMagnitude? m e <;> rfl
  have hnonneg : (0 : ℚ) ≤ m * 2 ^ e := by positivity
  rw [hread, Option.map_eq_some_iff]
  constructor
  · rintro ⟨l, hl, rfl⟩
    rw [← wholeMagnitude?_eq_some_iff.1 hl]
    cases negative <;> simp
  · intro hvalue
    refine ⟨k.natAbs, wholeMagnitude?_eq_some_iff.2 ?_, ?_⟩
    · rw [Nat.cast_natAbs, Int.cast_abs, hvalue]
      cases negative
      · exact abs_of_nonneg hnonneg
      · exact (abs_neg _).trans (abs_of_nonneg hnonneg)
    · -- The sign of a value is that of the whole number, unless both are zero.
      cases negative with
      | false =>
        have hk : 0 ≤ k := by exact_mod_cast hnonneg.trans_eq hvalue.symm
        exact Int.natAbs_of_nonneg hk
      | true =>
        have hk : k ≤ 0 := by exact_mod_cast hvalue.trans_le (neg_nonpos.2 hnonneg)
        simp only [if_true]
        omega

namespace JsonForm

/-- A whole number far within the range of 128 bits is taken as it is. -/
theorem whole?_eq_some_iff {x : Binary64} {k : ℤ} (hk : |k| ≤ 2 ^ 126) :
    whole? x = some k ↔ x.denote.toInt? = some k := by
  unfold whole?
  rw [Option.map_eq_some_iff]
  obtain ⟨hlow, hhigh⟩ := abs_le.1 hk
  have hmax : maxWide = 2 ^ 127 - 1 := rfl
  constructor
  · rintro ⟨l, hl, rfl⟩
    have hsame : saturate l = l := by
      unfold saturate at hlow hhigh ⊢
      omega
    rw [hl, hsame]
  · intro hread
    refine ⟨k, hread, ?_⟩
    unfold saturate
    omega

end JsonForm

/-! ## Numerals -/

namespace Numeral

theorem magnitude_nonneg (s : Numeral) : 0 ≤ s.magnitude := by
  unfold magnitude
  positivity

theorem abs_value (s : Numeral) : |s.value| = s.magnitude := by
  unfold value
  split
  · rw [abs_neg, abs_of_nonneg s.magnitude_nonneg]
  · exact abs_of_nonneg s.magnitude_nonneg

/-- A numeral that is zero is read as a zero, of either sign. -/
theorem denote_zero (s : Numeral) (hzero : s.decimal.coefficient = 0) :
    s.decimal.toBinary64.denote = .finite s.sign.isMinus 0 (-1074) := by
  have hround : s.decimal.round .double = FloatFormat.double.withSign s.sign.isMinus 0 := by
    rw [Decimal.round, if_pos hzero]
    rfl
  rw [Decimal.toBinary64, hround]
  cases s.sign.isMinus <;> decide +kernel

/-- The double-precision number that a numeral is read as is the one nearest to it, if it is not
    beyond all. -/
theorem denote_toBinary64 (s : Numeral) :
    ∃ n e, FloatFormat.double.Nearest |s.value| n e ∧
      (2 ^ (1023 : ℤ) ≤ (n : ℚ) * 2 ^ e ∧ s.decimal.toBinary64.denote = .infinite s.sign.isMinus ∨
        ∃ m' e', s.decimal.toBinary64.denote = .finite s.sign.isMinus m' e' ∧
          (m' : ℚ) * 2 ^ e' = n * 2 ^ e) := by
  rw [abs_value, ← value_decimal]
  rcases Nat.eq_zero_or_pos s.decimal.coefficient with hzero | hpos
  · have hvalue : s.decimal.value = 0 := by rw [Decimal.value, hzero, Nat.cast_zero, zero_mul]
    refine ⟨0, -1074, Decimal.nearest_zero hvalue.ge ?_, .inr ⟨0, -1074, s.denote_zero hzero, rfl⟩⟩
    rw [hvalue]
    positivity
  · obtain ⟨n, e, hnearest, hread⟩ := Decimal.denote_toBinary64 hpos
    exact ⟨n, e, hnearest, hread.imp_left fun hbeyond => ⟨hnearest.le_of_beyond hbeyond.1, hbeyond.2⟩⟩

/-- A numeral is rounded to what is nearest to it without its sign, with its sign. -/
theorem rounds_iff (s : Numeral) {n : ℕ} {e : ℤ} (h : FloatFormat.double.Nearest |s.value| n e)
    {y : ℚ} :
    FloatFormat.double.Rounds s.value y ↔
      y = if s.sign.isMinus then -((n : ℚ) * 2 ^ e) else (n : ℚ) * 2 ^ e := by
  have hnonneg := s.magnitude_nonneg
  constructor
  · rintro ⟨n', e', hnearest, hy⟩
    obtain ⟨rfl, rfl⟩ := h.unique hnearest
    -- Only a zero is neither above nor below zero, and it is rounded to zero.
    have hzero : s.value = 0 → (n : ℚ) * 2 ^ e = 0 := by
      intro hvalue
      rw [hvalue, abs_zero] at h
      have hn : n ≤ 0 := h.rounds.le_of_le (by simp)
      rw [Nat.le_zero.1 hn, Nat.cast_zero, zero_mul]
    unfold value at hy hzero
    split
    · rename_i hminus
      rw [if_pos hminus] at hy hzero
      rcases hy with ⟨hsign, rfl⟩ | ⟨-, rfl⟩
      · rw [hzero (by linarith), neg_zero]
      · rfl
    · rename_i hplus
      rw [if_neg hplus] at hy hzero
      rcases hy with ⟨-, rfl⟩ | ⟨hsign, rfl⟩
      · rfl
      · rw [hzero (by linarith), neg_zero]
  · rintro rfl
    refine ⟨n, e, h, ?_⟩
    unfold value
    split
    · exact .inr ⟨by linarith, rfl⟩
    · exact .inl ⟨hnonneg, rfl⟩

/-- What a numeral is read as by way of double precision: the whole number nearest to it among
    the double-precision numbers. -/
theorem whole?_toBinary64_iff (s : Numeral) {k : ℤ} (hk : |k| ≤ 2 ^ 126) :
    JsonForm.whole? s.decimal.toBinary64 = some k ↔ FloatFormat.double.Rounds s.value k := by
  rw [JsonForm.whole?_eq_some_iff hk]
  obtain ⟨n, e, hnearest, hread⟩ := s.denote_toBinary64
  rw [s.rounds_iff hnearest]
  rcases hread with ⟨hbeyond, hread⟩ | ⟨m', e', hread, hvalue⟩
  · -- An infinity is no whole number, and what is beyond all numbers is none of 128 bits.
    rw [hread]
    refine iff_of_false nofun fun heq => ?_
    have habs : |(k : ℚ)| = n * 2 ^ e := by
      have hnonneg : (0 : ℚ) ≤ n * 2 ^ e := by positivity
      rw [heq]
      split
      · rw [abs_neg, abs_of_nonneg hnonneg]
      · exact abs_of_nonneg hnonneg
    have hsmall : |(k : ℚ)| ≤ 2 ^ (126 : ℤ) := by exact_mod_cast hk
    have hpowers : (2 : ℚ) ^ (126 : ℤ) < 2 ^ (1023 : ℤ) :=
      zpow_lt_zpow_right₀ one_lt_two (by norm_num)
    rw [habs] at hsmall
    exact hpowers.not_ge (hbeyond.trans hsmall)
  · rw [hread, FloatValue.toInt?_eq_some_iff, hvalue]

end Numeral

end Protobuf
