import Protobuf.Proofs.Number.Shortest

/-! # Reading decimals

A decimal is rounded to the pattern nearest to its value, unless it is beyond what any format has.

* `Decimal.value`: the magnitude of a decimal.
* `Decimal.round_double`: what it is rounded to.
* `Decimal.denote_toBinary64`: the double-precision number nearest to it.
-/

namespace Protobuf

open FloatFormat

namespace Decimal

def value (d : Decimal) : ℚ := d.coefficient * 10 ^ d.exponent

variable {d : Decimal} {fmt : FloatFormat}

/-- A decimal that its exponent alone shows to be small is small. -/
theorem value_lt (hexponent : d.exponent ≤ 0) :
    d.value < 2 ^ ((d.coefficient.log2 : ℤ) + 3 * d.exponent + 1) := by
  have hcoefficient : (d.coefficient : ℚ) < 2 ^ ((d.coefficient.log2 : ℤ) + 1) := by
    exact_mod_cast Nat.lt_log2_self
  have height := ten_zpow_le_eight_zpow hexponent
  calc d.value ≤ d.coefficient * 8 ^ d.exponent := by unfold value; gcongr
    _ < 2 ^ ((d.coefficient.log2 : ℤ) + 1) * 8 ^ d.exponent := by gcongr
    _ = 2 ^ ((d.coefficient.log2 : ℤ) + 3 * d.exponent + 1) := by
      rw [show (8 : ℚ) = 2 ^ (3 : ℤ) by norm_num, ← zpow_mul, ← zpow_add₀ two_ne_zero]
      congr 1
      ring

/-- A decimal that its exponent shows to be neither tiny nor huge is rounded to the pattern nearest
    to its value. -/
theorem round_moderate (fmt : FloatFormat) (hpos : 0 < d.coefficient) (hhuge : ¬400 < d.exponent)
    (htiny : d.exponent < 0 → ¬(d.coefficient.log2 : ℤ) + 3 * d.exponent < -1201) :
    ∃ n e, fmt.Nearest d.value n e ∧
      d.round fmt = fmt.withSign d.negative (min fmt.infinity (fmt.pattern n e)) := by
  rw [round, if_neg hpos.ne', if_neg hhuge]
  split
  · rename_i hnonneg
    have hnum : 0 < d.coefficient * Nat.pow 10 d.exponent.toNat :=
      Nat.mul_pos hpos (Nat.pow_pos (by decide))
    have hvalue : ((d.coefficient * Nat.pow 10 d.exponent.toNat : ℕ) : ℚ) / (1 : ℕ) = d.value := by
      rw [Nat.cast_mul, cast_pow_toNat 10 hnonneg, value, Nat.cast_one, div_one]
      rfl
    obtain ⟨n, e, hnearest, hmagnitude⟩ := exists_nearest fmt hnum Nat.one_pos
    exact ⟨n, e, hvalue ▸ hnearest, by rw [nearest, hmagnitude]⟩
  · rename_i hnegative
    have hden : 0 < Nat.pow 10 (-d.exponent).toNat := Nat.pow_pos (by decide)
    have hvalue : (d.coefficient : ℚ) / (Nat.pow 10 (-d.exponent).toNat : ℕ) = d.value := by
      rw [cast_pow_neg_toNat 10 (by omega), value, div_inv_eq_mul]
      rfl
    obtain ⟨n, e, hnearest, hmagnitude⟩ := exists_nearest fmt hpos hden
    rw [if_neg (htiny (by omega))]
    exact ⟨n, e, hvalue ▸ hnearest, by rw [nearest, hmagnitude]⟩

/-- A decimal below half of the least number is rounded to zero. -/
theorem nearest_zero (hlow : 0 ≤ d.value) (hhigh : d.value ≤ 2 ^ (-1075 : ℤ)) :
    FloatFormat.double.Nearest d.value 0 (-1074) := by
  have hunit : (0 : ℚ) < 2 ^ (-1074 : ℤ) := by positivity
  have hpowers : (2 : ℚ) ^ (-1075 : ℤ) < 2 ^ (-1074 + 52 + 1 : ℤ) :=
    zpow_lt_zpow_right₀ one_lt_two (by norm_num)
  have hhalf : (2 : ℚ) ^ (-1075 : ℤ) = 1 / 2 * 2 ^ (-1074 : ℤ) := by
    rw [show (-1075 : ℤ) = -1074 - 1 from rfl, zpow_sub_one₀ two_ne_zero]
    ring
  refine ⟨le_rfl, ⟨?_, ?_, fun hodd => by cases hodd⟩, hhigh.trans_lt hpowers, .inl rfl⟩
  · rw [Nat.cast_zero]
    exact le_trans (by norm_num) (div_nonneg hlow hunit.le)
  · rw [Nat.cast_zero, zero_add, div_le_iff₀ hunit, ← hhalf]
    exact hhigh

/-- A decimal of at least `2^1024` is beyond all numbers. -/
theorem infinity_le_pattern {x : ℚ} {n : ℕ} {e : ℤ} (h : FloatFormat.double.Nearest x n e)
    (hx : 2 ^ (1024 : ℤ) ≤ x) : FloatFormat.double.infinity ≤ FloatFormat.double.pattern n e := by
  have hpowers := (zpow_lt_zpow_iff_right₀ one_lt_two).1 (hx.trans_lt h.lt)
  rw [fractionBits_double] at hpowers
  have hhidden := h.hidden
  rw [hiddenBit_double, minExponent_double] at hhidden
  rw [infinity_double, FloatFormat.pattern, hiddenBit_double, minExponent_double]
  omega

/-- A decimal is rounded to the double-precision pattern nearest to its value. -/
theorem round_double (hpos : 0 < d.coefficient) :
    ∃ n e, FloatFormat.double.Nearest d.value n e ∧ d.round .double =
      FloatFormat.double.withSign d.negative
        (min FloatFormat.double.infinity (FloatFormat.double.pattern n e)) := by
  have hone : (1 : ℚ) ≤ d.coefficient := by exact_mod_cast hpos
  have hnonneg : 0 ≤ d.value := by unfold value; positivity
  -- Decimals that are huge or tiny are not expanded.
  by_cases hhuge : 400 < d.exponent
  · have hnum : 0 < d.coefficient * Nat.pow 10 d.exponent.toNat :=
      Nat.mul_pos hpos (Nat.pow_pos (by decide))
    have hvalue : ((d.coefficient * Nat.pow 10 d.exponent.toNat : ℕ) : ℚ) / (1 : ℕ) = d.value := by
      rw [Nat.cast_mul, cast_pow_toNat 10 (by omega), value, Nat.cast_one, div_one]
      rfl
    obtain ⟨n, e, hnearest, -⟩ := exists_nearest .double hnum Nat.one_pos
    rw [hvalue] at hnearest
    have hlarge : (2 : ℚ) ^ (1024 : ℤ) ≤ d.value := by
      calc (2 : ℚ) ^ (1024 : ℤ) ≤ 2 ^ (3 * 400 : ℤ) := zpow_le_zpow_right₀ one_le_two (by norm_num)
        _ = 8 ^ (400 : ℤ) := by rw [zpow_mul, show (2 : ℚ) ^ (3 : ℤ) = 8 by norm_num]
        _ ≤ 10 ^ (400 : ℤ) := zpow_le_zpow_left₀ (by norm_num) (by norm_num) (by norm_num)
        _ ≤ 10 ^ d.exponent := zpow_le_zpow_right₀ (by norm_num) hhuge.le
        _ ≤ d.value := le_mul_of_one_le_left (by positivity) hone
    refine ⟨n, e, hnearest, ?_⟩
    rw [round, if_neg hpos.ne', if_pos hhuge, min_eq_left (infinity_le_pattern hnearest hlarge)]
  by_cases htiny : d.exponent < 0 ∧ (d.coefficient.log2 : ℤ) + 3 * d.exponent < -1201
  · have hsmall : d.value ≤ 2 ^ (-1075 : ℤ) :=
      (value_lt htiny.1.le).le.trans (zpow_le_zpow_right₀ one_le_two (by omega))
    refine ⟨0, -1074, nearest_zero hnonneg hsmall, ?_⟩
    rw [round, if_neg hpos.ne', if_neg hhuge, if_neg (by omega), if_pos htiny.2]
    rfl
  · exact round_moderate .double hpos hhuge fun hnegative htiny' => htiny ⟨hnegative, htiny'⟩

/-- What a decimal is rounded to, as a number: the one nearest to its value, or an infinity if
    that is beyond all numbers. -/
theorem denote_toBinary64 (hpos : 0 < d.coefficient) :
    ∃ n e, FloatFormat.double.Nearest d.value n e ∧
      (FloatFormat.double.infinity ≤ FloatFormat.double.pattern n e ∧
          d.toBinary64.denote = .infinite d.negative ∨
        ∃ m' e', d.toBinary64.denote = .finite d.negative m' e' ∧ (m' : ℚ) * 2 ^ e' = n * 2 ^ e) := by
  obtain ⟨n, e, hnearest, hround⟩ := round_double hpos
  have hbits : ∀ magnitude ≤ FloatFormat.double.infinity,
      (UInt64.ofNat (FloatFormat.double.withSign d.negative magnitude)).toNat =
        FloatFormat.double.withSign d.negative magnitude := by
    intro magnitude hle
    apply UInt64.toNat_ofNat_of_lt'
    rw [infinity_double] at hle
    rw [withSign_eq, signBit_double]
    have hsign := d.negative.toNat_le
    simp only [UInt64.size]
    omega
  refine ⟨n, e, hnearest, ?_⟩
  rw [toBinary64, Binary64.denote, hround, hbits _ (min_le_left _ _)]
  rcases lt_or_ge (FloatFormat.double.pattern n e) FloatFormat.double.infinity with hlt | hge
  · obtain ⟨m', e', hcanonical, hpattern, hvalue⟩ := hnearest.exists_canonical (by decide) hlt
    rw [min_eq_right hlt.le, ← hpattern, denote_pattern hcanonical]
    exact .inr ⟨m', e', rfl, hvalue⟩
  · rw [min_eq_left hge]
    refine .inl ⟨hge, ?_⟩
    cases d.negative <;> decide +kernel

/-- A decimal of moderate size has a double-precision number nearest to it. -/
theorem denote_toBinary64_moderate (hpos : 0 < d.coefficient) (hhigh : d.value < 2 ^ (400 : ℤ)) :
    ∃ n e m' e', FloatFormat.double.Nearest d.value n e ∧
      d.toBinary64.denote = .finite d.negative m' e' ∧ (m' : ℚ) * 2 ^ e' = n * 2 ^ e := by
  obtain ⟨n, e, hnearest, ⟨hbeyond, -⟩ | ⟨m', e', hdenote, hvalue⟩⟩ := denote_toBinary64 hpos
  · exfalso
    have hexponent : e ≤ 348 := by
      rcases hnearest.le with hmin | hle
      · rw [hmin, minExponent_double]
        decide
      · have hpowers := (zpow_lt_zpow_iff_right₀ one_lt_two).1 (hle.trans_lt hhigh)
        rw [fractionBits_double] at hpowers
        omega
    have hfits := hnearest.le_two_mul
    rw [infinity_double, FloatFormat.pattern, minExponent_double] at hbeyond
    rw [hiddenBit_double] at hbeyond hfits
    omega
  · exact ⟨n, e, m', e', hnearest, hdenote, hvalue⟩

end Decimal

end Protobuf
