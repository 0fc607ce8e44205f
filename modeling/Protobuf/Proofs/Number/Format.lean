import Protobuf.Proofs.Number.Pattern
import Protobuf.Proofs.Number.Rounding

/-! # To the nearest value of a binary format

A number is rounded to a whole number of units of the last place that the format has for numbers
of its size.

* `FloatFormat.Nearest`: a number in such units.
* `FloatFormat.exists_nearest`, `FloatFormat.exists_nearest_scaled`: what a number is rounded to.
* `FloatFormat.Nearest.exists_canonical`: it is a value of the format, unless it is beyond all.
-/

namespace Protobuf

namespace FloatFormat

/-- A number in units of the last place that the format has for numbers of its size, rounded to
    a whole number. -/
structure Nearest (fmt : FloatFormat) (x : ℚ) (n : ℕ) (e : ℤ) : Prop where
  least : fmt.minExponent ≤ e
  rounds : RoundsTo (x / 2 ^ e) n
  lt : x < 2 ^ (e + fmt.fractionBits + 1)
  le : e = fmt.minExponent ∨ (2 : ℚ) ^ (e + fmt.fractionBits) ≤ x

variable {fmt : FloatFormat} {x : ℚ} {m n num den : ℕ} {e e' : ℤ}

theorem cast_hiddenBit (fmt : FloatFormat) : (fmt.hiddenBit : ℚ) = 2 ^ (fmt.fractionBits : ℤ) := by
  simp [hiddenBit]

theorem exists_nearest (fmt : FloatFormat) (hnum : 0 < num) (hden : 0 < den) :
    ∃ n e, fmt.Nearest (num / den) n e ∧
      fmt.nearestMagnitude num den = min fmt.infinity (fmt.pattern n e) := by
  obtain ⟨hlow, hhigh⟩ := floorLog2_spec hnum hden
  refine ⟨_, max fmt.minExponent (floorLog2 num den - fmt.fractionBits),
    ⟨le_max_left .., roundsTo_roundToUnit num hden _, ?_, ?_⟩, ?_⟩
  · refine hhigh.trans_le (zpow_le_zpow_right₀ one_le_two ?_)
    omega
  · refine (le_total (floorLog2 num den - fmt.fractionBits) fmt.minExponent).imp max_eq_left ?_
    intro h
    rwa [max_eq_right h, sub_add_cancel]
  · rw [nearestMagnitude, if_neg hnum.ne', pattern]

/-- A value of another format is rounded as the number that it is. -/
theorem exists_nearest_scaled (fmt : FloatFormat) (negative : Bool) (hm : 0 < m) (e : ℤ) :
    ∃ n e', fmt.Nearest (m * 2 ^ e) n e' ∧
      fmt.nearestScaled negative m e =
        fmt.withSign negative (min fmt.infinity (fmt.pattern n e')) := by
  rw [nearestScaled]
  split
  · rename_i hnonneg
    have hnum : 0 < m * Nat.pow 2 e.toNat := Nat.mul_pos hm (Nat.two_pow_pos _)
    have hvalue : ((m * Nat.pow 2 e.toNat : ℕ) : ℚ) / (1 : ℕ) = m * 2 ^ e := by
      rw [Nat.cast_mul, cast_pow_toNat 2 hnonneg, Nat.cast_one, div_one]
      rfl
    obtain ⟨n, e', hnearest, hmagnitude⟩ := exists_nearest fmt hnum Nat.one_pos
    exact ⟨n, e', hvalue ▸ hnearest, by rw [nearest, hmagnitude]⟩
  · rename_i hnegative
    have hden : 0 < Nat.pow 2 (-e).toNat := Nat.two_pow_pos _
    have hvalue : (m : ℚ) / (Nat.pow 2 (-e).toNat : ℕ) = m * 2 ^ e := by
      rw [cast_pow_neg_toNat 2 (by omega), div_inv_eq_mul]
      rfl
    obtain ⟨n, e', hnearest, hmagnitude⟩ := exists_nearest fmt hm hden
    exact ⟨n, e', hvalue ▸ hnearest, by rw [nearest, hmagnitude]⟩

namespace Nearest

theorem le_two_mul (h : fmt.Nearest x n e) : n ≤ 2 * fmt.hiddenBit := by
  apply h.rounds.le_of_le
  rw [div_le_iff₀ (by positivity), Nat.cast_mul, cast_hiddenBit]
  refine h.lt.le.trans_eq ?_
  rw [Nat.cast_two, ← zpow_one_add₀ two_ne_zero, ← zpow_add₀ two_ne_zero]
  congr 1
  ring

theorem hidden (h : fmt.Nearest x n e) : fmt.hiddenBit ≤ n ∨ e = fmt.minExponent := by
  refine h.le.symm.imp_left fun hle => h.rounds.ge_of_ge ?_
  rw [le_div_iff₀ (by positivity), cast_hiddenBit, ← zpow_add₀ two_ne_zero, add_comm]
  exact hle

/-- What a number is rounded to is a value of the format, unless it is beyond all of them. -/
theorem exists_canonical (h : fmt.Nearest x n e) (wide : 2 < fmt.exponentCount)
    (hlt : fmt.pattern n e < fmt.infinity) :
    ∃ m e', fmt.Canonical m e' ∧ fmt.pattern m e' = fmt.pattern n e ∧
      (m : ℚ) * 2 ^ e' = n * 2 ^ e := by
  have hpos := fmt.hiddenBit_pos
  have hleast := h.least
  rw [pattern, infinity] at hlt
  rcases h.le_two_mul.lt_or_eq with hfits | rfl
  · have hfinite : (e - fmt.minExponent).toNat + 2 < fmt.exponentCount := by
      rcases h.hidden with hhidden | hmin
      · have hfield : (e - fmt.minExponent).toNat + 1 < fmt.exponentCount - 1 := by
          apply Nat.lt_of_mul_lt_mul_right (a := fmt.hiddenBit)
          rw [Nat.add_mul, Nat.one_mul]
          omega
        omega
      · rw [hmin, Int.sub_self]
        exact wide
    exact ⟨n, e, ⟨hfits, hleast, h.hidden, hfinite⟩, rfl, rfl⟩
  · -- The mantissa was rounded up to one bit more than there is room for.
    have hfield : (e - fmt.minExponent).toNat + 2 < fmt.exponentCount - 1 := by
      apply Nat.lt_of_mul_lt_mul_right (a := fmt.hiddenBit)
      rwa [Nat.add_mul]
    have hnext : (e + 1 - fmt.minExponent).toNat = (e - fmt.minExponent).toNat + 1 := by omega
    refine ⟨fmt.hiddenBit, e + 1, ⟨by omega, by omega, .inl le_rfl, by omega⟩, ?_, ?_⟩
    · rw [pattern, pattern, hnext]
      ring
    · rw [zpow_add_one₀ two_ne_zero]
      push_cast
      ring

/-- The last place of a number follows from its size. -/
theorem exponent_eq (h : fmt.Nearest x n e') (hleast : fmt.minExponent ≤ e)
    (hlt : x < 2 ^ (e + fmt.fractionBits + 1))
    (hle : e = fmt.minExponent ∨ (2 : ℚ) ^ (e + fmt.fractionBits) ≤ x) : e' = e := by
  have hleast' := h.least
  apply le_antisymm
  · rcases h.le with hmin | hle'
    · omega
    · have hpowers := (zpow_lt_zpow_iff_right₀ one_lt_two).1 (hle'.trans_lt hlt)
      omega
  · rcases hle with hmin | hle
    · omega
    · have hpowers := (zpow_lt_zpow_iff_right₀ one_lt_two).1 (hle.trans_lt h.lt)
      omega

theorem unique (h : fmt.Nearest x n e) (h' : fmt.Nearest x m e') : n = m ∧ e = e' := by
  obtain rfl := h.exponent_eq h'.least h'.lt h'.le
  exact ⟨h.rounds.unique h'.rounds, rfl⟩

end Nearest

/-! ## Double precision -/

theorem hiddenBit_double : double.hiddenBit = 2 ^ 52 := rfl

theorem fractionBits_double : ((double.fractionBits : ℕ) : ℤ) = 52 := rfl

theorem minExponent_double : double.minExponent = -1074 := rfl

theorem signBit_double : double.signBit = 2 ^ 63 := rfl

theorem infinity_double : double.infinity = 2047 * 2 ^ 52 := rfl

end FloatFormat

end Protobuf
