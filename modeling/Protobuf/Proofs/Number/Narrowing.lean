import Protobuf.Proofs.Number.Halfway

/-! # Single precision by way of double precision

The shortest decimal of a single-precision number is rounded to double precision first and to
single precision then.  Each rounding is to the nearest, so what is near to a point half way
between two numbers may be rounded to that point, and then to the other number.

* `FloatFormat.Nearest.le_of_le`, `ge_of_ge`: a number is not rounded past a coarser one.
* `holds_or_end`: what is rounded to double precision stays in the rounding interval, or is at an
  end of it that the interval does not hold.
* `eq_of_end`: the one number of which the shortest decimal is rounded to such an end.
-/

namespace Protobuf

namespace FloatFormat

theorem hiddenBit_single : single.hiddenBit = 2 ^ 23 := rfl

theorem minExponent_single : single.minExponent = -149 := rfl

theorem exponentCount_single : single.exponentCount = 256 := rfl

theorem Canonical.single_bounds {m : ℕ} {e : ℤ} (h : single.Canonical m e) :
    m < 2 ^ 24 ∧ -149 ≤ e ∧ e ≤ 104 ∧ (2 ^ 23 ≤ m ∨ e = -149) := by
  obtain ⟨hlt, hleast, hhidden, hfinite⟩ := h
  rw [hiddenBit_single] at hlt hhidden
  rw [minExponent_single] at hleast hhidden hfinite
  rw [exponentCount_single] at hfinite
  omega

namespace Nearest

variable {fmt : FloatFormat} {x : ℚ} {n l : ℕ} {e e' : ℤ}

theorem mul_zpow_eq (l : ℕ) (he : e' ≤ e) :
    (l : ℚ) * 2 ^ e = (l * 2 ^ (e - e').toNat : ℕ) * 2 ^ e' := by
  obtain ⟨j, hj⟩ := Int.eq_ofNat_of_zero_le (sub_nonneg.2 he)
  rw [hj, Int.toNat_natCast, ← sub_add_cancel e e', hj, zpow_add₀ two_ne_zero, zpow_natCast]
  push_cast
  ring

/-- A number is not rounded past a multiple of a coarser unit. -/
theorem le_of_le (h : fmt.Nearest x n e') (he : e' ≤ e) (hx : x ≤ l * 2 ^ e) :
    (n : ℚ) * 2 ^ e' ≤ l * 2 ^ e := by
  have hunit : (0 : ℚ) < 2 ^ e' := by positivity
  rw [mul_zpow_eq l he] at hx ⊢
  have hle := h.rounds.le_of_le ((div_le_iff₀ hunit).2 hx)
  gcongr

theorem ge_of_ge (h : fmt.Nearest x n e') (he : e' ≤ e) (hx : l * 2 ^ e ≤ x) :
    (l : ℚ) * 2 ^ e ≤ n * 2 ^ e' := by
  have hunit : (0 : ℚ) < 2 ^ e' := by positivity
  rw [mul_zpow_eq l he] at hx ⊢
  have hle := h.rounds.ge_of_ge ((le_div_iff₀ hunit).2 hx)
  gcongr

theorem abs_sub_le (h : fmt.Nearest x n e') : |x - n * 2 ^ e'| ≤ 2 ^ (e' - 1) := by
  have hunit : (0 : ℚ) < 2 ^ e' := by positivity
  have hle := (div_le_iff₀ hunit).1 h.rounds.le
  have hge := (le_div_iff₀ hunit).1 h.rounds.ge
  rw [zpow_sub_one₀ two_ne_zero, abs_le]
  constructor <;> linarith

end Nearest

end FloatFormat

open FloatFormat Decimal

variable {m n d : ℕ} {e e' k : ℤ} {z : ℚ}

/-- The last place of a double-precision number is far below that of a single-precision one. -/
theorem exponent_le (h : single.Canonical m e) (hm : 0 < m) (hz : (interval single m e).Holds z)
    (hn : double.Nearest z n e') : e' ≤ e - 29 := by
  obtain ⟨hlt, hlow, hhigh, -⟩ := h.single_bounds
  rcases hn.le with hmin | hle
  · rw [hmin, minExponent_double]
    omega
  · have hm' : (m : ℚ) + 1 ≤ 2 ^ 24 := by exact_mod_cast hlt
    have hunit : (0 : ℚ) < 2 ^ e := by positivity
    have hsmall : z < 2 ^ (24 + e) := by
      have hend := (holds_interval hz hm).2.1
      rw [zpow_add₀ two_ne_zero]
      norm_num at hm' ⊢
      nlinarith
    have hpowers := (zpow_lt_zpow_iff_right₀ one_lt_two).1 (hle.trans_lt hsmall)
    rw [show ((double.fractionBits : ℕ) : ℤ) = 52 from rfl] at hpowers
    omega

theorem ne_hiddenBit_of_odd (hodd : m % 2 = 1) : m ≠ single.hiddenBit := by
  rw [hiddenBit_single]
  omega

/-- The interval of an odd value reaches half a unit to both sides and does not hold its ends. -/
theorem holds_interval_odd (fmt : FloatFormat) (e : ℤ) (hodd : m % 2 = 1)
    (hbinade : m ≠ fmt.hiddenBit) (x : ℚ) :
    (interval fmt m e).Holds x ↔
      ((2 * m - 1 : ℕ) : ℚ) * 2 ^ (e - 1) < x ∧ x < (2 * m + 1 : ℕ) * 2 ^ (e - 1) := by
  have hunit : (2 : ℚ) ^ (e - 1) = 2 * 2 ^ (e - 2) := by
    rw [← zpow_one_add₀ two_ne_zero]
    congr 1
    ring
  have hlow : ((4 * m - 2 : ℕ) : ℚ) * 2 ^ (e - 2) = (2 * m - 1 : ℕ) * 2 ^ (e - 1) := by
    rw [hunit, show 4 * m - 2 = (2 * m - 1) * 2 by omega]
    push_cast
    ring
  have hhigh : ((4 * m + 2 : ℕ) : ℚ) * 2 ^ (e - 2) = (2 * m + 1 : ℕ) * 2 ^ (e - 1) := by
    rw [hunit]
    push_cast
    ring
  have hopen : ¬(interval fmt m e).closed = true := by simp [interval, hodd]
  have hat : ¬(m = fmt.hiddenBit ∧ fmt.minExponent < e) := fun h => hbinade h.1
  rw [RoundingInterval.Holds, if_neg hopen, ← hlow, ← hhigh, interval]
  simp only [if_neg hat]

/-- A number of the rounding interval that is rounded to double precision stays in the interval,
    or it is at an end of one that does not hold its ends. -/
theorem holds_or_end (h : single.Canonical m e) (hm : 0 < m) (hz : (interval single m e).Holds z)
    (hn : double.Nearest z n e') : (interval single m e).Holds (n * 2 ^ e') ∨ m % 2 = 1 ∧
      ∃ l : ℕ, (l = 2 * m - 1 ∨ l = 2 * m + 1) ∧ (n : ℚ) * 2 ^ e' = l * 2 ^ (e - 1) := by
  have hcoarse := exponent_le h hm hz hn
  rcases Nat.mod_two_eq_zero_or_one m with heven | hodd
  · -- The ends are numbers of the finer format and belong to the interval.
    have hclosed : (interval single m e).closed = true := by simp [interval, heven]
    have hcoarse' : e' ≤ (interval single m e).scale := by
      show e' ≤ e - 2
      omega
    rw [RoundingInterval.Holds, if_pos hclosed] at hz ⊢
    exact .inl ⟨hn.ge_of_ge hcoarse' hz.1, hn.le_of_le hcoarse' hz.2⟩
  · rw [holds_interval_odd _ _ hodd (ne_hiddenBit_of_odd hodd)] at hz ⊢
    have hlow := hn.ge_of_ge (by omega) hz.1.le
    have hhigh := hn.le_of_le (by omega) hz.2.le
    rcases hlow.lt_or_eq with hlow | hlow
    · rcases hhigh.lt_or_eq with hhigh | hhigh
      · exact .inl ⟨hlow, hhigh⟩
      · exact .inr ⟨hodd, _, .inr rfl, hhigh⟩
    · exact .inr ⟨hodd, _, .inl rfl, hlow.symm⟩

/-- On a grid that is finer than the unit there is a multiple within half a step of the value, and
    so the nearest one that the interval holds is. -/
theorem abs_sub_le_of_fine (hm : 0 < m) (hodd : m % 2 = 1) (hd : (interval single m e).IsNearest d k)
    (hfine : (10 : ℚ) ^ k < 2 ^ e) : |(d : ℚ) * 10 ^ k - m * 2 ^ e| ≤ 10 ^ k / 2 := by
  have hgrid : (0 : ℚ) < 10 ^ k := by positivity
  have hone : (1 : ℚ) ≤ m := by exact_mod_cast hm
  obtain ⟨c, hc⟩ : ∃ c : ℤ, |(m : ℚ) * 2 ^ e / 10 ^ k - c| ≤ 1 / 2 := ⟨_, abs_sub_round _⟩
  have hlarge : 1 < (m : ℚ) * 2 ^ e / 10 ^ k := by
    rw [lt_div_iff₀ hgrid]
    nlinarith
  have hpos : 0 < c := by
    have hhalf : (0 : ℚ) < c := by linarith [(abs_le.1 hc).2]
    exact_mod_cast hhalf
  obtain ⟨c, rfl⟩ := Int.eq_ofNat_of_zero_le hpos.le
  have hdistance : |(c : ℚ) * 10 ^ k - m * 2 ^ e| ≤ 10 ^ k / 2 := by
    have hscale : (c : ℚ) * 10 ^ k - m * 2 ^ e = -(m * 2 ^ e / 10 ^ k - c) * 10 ^ k := by
      field_simp
      ring
    rw [hscale, abs_mul, abs_neg, abs_of_pos hgrid]
    push_cast at hc
    nlinarith
  have hheld : (interval single m e).Holds (c * 10 ^ k) := by
    rw [holds_interval_odd _ _ hodd (ne_hiddenBit_of_odd hodd), Nat.cast_sub (by omega),
      zpow_sub_one₀ two_ne_zero]
    push_cast
    obtain ⟨hlow, hhigh⟩ := abs_le.1 hdistance
    constructor <;> linarith
  have hle := hd.le c (by exact_mod_cast hpos) hheld
  rw [center_interval] at hle
  exact hle.trans hdistance

/-- An end of the interval of an odd value is half a unit from the value. -/
theorem abs_end_sub (hm : 0 < m) {l : ℕ} (hl : l = 2 * m - 1 ∨ l = 2 * m + 1) (e : ℤ) :
    |(l : ℚ) * 2 ^ (e - 1) - m * 2 ^ e| = 2 ^ e / 2 := by
  have hunit : (0 : ℚ) < 2 ^ e := by positivity
  rw [zpow_sub_one₀ two_ne_zero]
  rcases hl with rfl | rfl
  · rw [Nat.cast_sub (by omega), abs_of_nonpos (by push_cast; linarith)]
    push_cast
    ring
  · rw [abs_of_nonneg (by push_cast; linarith)]
    push_cast
    ring

/-- On a grid that is well finer than the unit the nearest multiple is nearer to the value than to
    an end. -/
theorem lt_abs_sub_end (hm : 0 < m) (hodd : m % 2 = 1) (hd : (interval single m e).IsNearest d k)
    (hfine : (10 : ℚ) ^ k ≤ 127 / 128 * 2 ^ e) {l : ℕ} (hl : l = 2 * m - 1 ∨ l = 2 * m + 1) :
    2 ^ (e - 30) < |(d : ℚ) * 10 ^ k - l * 2 ^ (e - 1)| := by
  have hunit : (0 : ℚ) < 2 ^ e := by positivity
  have hnear := abs_sub_le_of_fine hm hodd hd (by linarith)
  have hsmall : (2 : ℚ) ^ (e - 30) = 2 ^ e / 2 ^ 30 := by
    rw [zpow_sub₀ two_ne_zero]
    norm_num
  have hsum := abs_sub_le ((l : ℚ) * 2 ^ (e - 1)) (d * 10 ^ k) (m * 2 ^ e)
  rw [abs_end_sub hm hl, abs_sub_comm (l * 2 ^ (e - 1) : ℚ)] at hsum
  norm_num at hsmall
  linarith

/-- The one number of which the shortest decimal is rounded to an end of its interval. -/
theorem eq_of_end (h : single.Canonical m e) (hodd : m % 2 = 1)
    (hd : (interval single m e).IsNearest d k) (hn : double.Nearest (d * 10 ^ k) n e') {l : ℕ}
    (hl : l = 2 * m - 1 ∨ l = 2 * m + 1) (hend : (n : ℚ) * 2 ^ e' = l * 2 ^ (e - 1)) :
    m = 11420669 ∧ e = -107 := by
  have hm : 0 < m := by omega
  obtain ⟨hlt, hlow, hhigh, -⟩ := h.single_bounds
  have hcoarse := exponent_le h hm hd.holds hn
  have hclose : |(d : ℚ) * 10 ^ k - l * 2 ^ (e - 1)| ≤ 2 ^ (e - 30) := by
    rw [← hend]
    exact hn.abs_sub_le.trans (zpow_le_zpow_right₀ one_le_two (by omega))
  rcases lt_or_ge k (gridExponent e) with hk | hk
  · exact absurd hclose (lt_abs_sub_end hm hodd hd (ten_zpow_le hlow hhigh hk) hl).not_ge
  · -- The decimal is a multiple of a power of ten that exceeds the unit.
    obtain ⟨j, hj⟩ := Int.eq_ofNat_of_zero_le (sub_nonneg.2 hk)
    have hgrid : (d : ℚ) * 10 ^ k = (d * 10 ^ j : ℕ) * 10 ^ gridExponent e := by
      rw [← sub_add_cancel k (gridExponent e), hj, zpow_add₀ (by norm_num), zpow_natCast]
      push_cast
      ring
    have hstrict := (holds_interval_odd single e hodd (ne_hiddenBit_of_odd hodd) _).1 hd.holds
    have hne : (d : ℚ) * 10 ^ k ≠ l * 2 ^ (e - 1) := by
      rcases hl with rfl | rfl
      · exact hstrict.1.ne'
      · exact hstrict.2.ne
    rw [hgrid] at hclose hne
    obtain ⟨rfl, hl'⟩ := eq_of_close hlow hhigh (by omega) (by omega) hne hclose
    exact ⟨by omega, rfl⟩

end Protobuf
