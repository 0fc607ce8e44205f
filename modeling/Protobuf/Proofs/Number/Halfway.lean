import Protobuf.Proofs.Number.Bracket
import Protobuf.Proofs.Number.Shortest

/-! # Decimals near a point half way between two single-precision numbers

A multiple of a power of ten that exceeds the distance of two neighbouring single-precision
numbers is not so near to the point half way between them that a double-precision number cannot
tell them apart.  There is one such point, and one multiple, of which this is not true.

* `gridExponent`: the least power of ten that is not below a power of two.
* `isClear_all`: how near the multiples come, for each exponent.
* `eq_of_close`: the exception.
-/

namespace Protobuf

open Decimal

/-- The least `p` with `2^e ≤ 10^p`, for the exponents of single-precision numbers. -/
def gridExponent (e : ℤ) : ℤ := -(-e * 30103 / 100000)

/-- Whether the multiples of `10^p` stay clear of the odd multiples of `2^(e-1)` below `2^(e+24)`,
    where they do not coincide: the ratio of the two units has a small denominator, or there are
    neighbouring fractions around it that do not come near it. -/
def IsClear (e : ℤ) : Prop :=
  (onGrid 1 (1 - e) (-gridExponent e)).2 < 2 ^ 29 ∨
    let (num, den) := onGrid 1 (1 - e) (-gridExponent e)
    let b := Bracket.whole.narrowTo (2 ^ 25) num den 12
    2 ^ 25 ≤ b.p + b.p' ∧ b.IsApart num den (den / 2 ^ 29)

instance (e : ℤ) : Decidable (IsClear e) := inferInstanceAs (Decidable (_ ∨ _))

theorem isClear_all : ∀ n : ℕ, n < 254 → n ≠ 42 → IsClear (n - 149) := by decide +kernel

theorem powers_apart : ∀ n : ℕ, n < 254 →
    (onGrid 1 (1 - ((n : ℤ) - 149)) (1 - gridExponent (n - 149))).1 * 64 ≤
      127 * (onGrid 1 (1 - ((n : ℤ) - 149)) (1 - gridExponent (n - 149))).2 := by
  decide +kernel

variable {e : ℤ} {d m : ℕ}

theorem isClear (hlow : -149 ≤ e) (hhigh : e ≤ 104) (hne : e ≠ -107) : IsClear e := by
  obtain ⟨n, hn⟩ : ∃ n : ℕ, e = n - 149 := ⟨(e + 149).toNat, by omega⟩
  rw [hn]
  exact isClear_all n (by omega) (by omega)

/-- Powers of ten below a power of two are well below it. -/
theorem ten_zpow_le (hlow : -149 ≤ e) (hhigh : e ≤ 104) {k : ℤ} (hk : k < gridExponent e) :
    (10 : ℚ) ^ k ≤ 127 / 128 * 2 ^ e := by
  -- The ratio of the two units was compared for every exponent there is.
  obtain ⟨n, hn⟩ : ∃ n : ℕ, e = n - 149 := ⟨(e + 149).toNat, by omega⟩
  have hratio : ((onGrid 1 (1 - e) (1 - gridExponent e)).1 : ℚ) /
      (onGrid 1 (1 - e) (1 - gridExponent e)).2 ≤ 127 / 64 := by
    have hpos : (0 : ℚ) < (onGrid 1 (1 - e) (1 - gridExponent e)).2 := by
      exact_mod_cast onGrid_pos _ _ _
    rw [div_le_div_iff₀ hpos (by norm_num)]
    rw [hn]
    exact_mod_cast powers_apart n (by omega)
  rw [onGrid_eq, Nat.cast_one, one_mul] at hratio
  have hunit : (0 : ℚ) < 2 ^ (e - 1) := by positivity
  calc (10 : ℚ) ^ k ≤ 10 ^ (gridExponent e - 1) := zpow_le_zpow_right₀ (by norm_num) (by omega)
    _ = 2 ^ (1 - e) / 10 ^ (1 - gridExponent e) * 2 ^ (e - 1) := by
      rw [← neg_sub e 1, ← neg_sub (gridExponent e) 1, zpow_neg, zpow_neg]
      field_simp
    _ ≤ 127 / 64 * 2 ^ (e - 1) := by gcongr
    _ = 127 / 128 * 2 ^ e := by
      rw [zpow_sub_one₀ two_ne_zero]
      ring

/-- The distance of a multiple of `10^p` from one of `2^(e-1)` is one of whole numbers. -/
theorem distance_eq {num den : ℕ} (hgrid : onGrid 1 (1 - e) (-gridExponent e) = (num, den)) :
    0 < den ∧ (d : ℚ) * 10 ^ gridExponent e - m * 2 ^ (e - 1) =
      ((d : ℤ) * num - m * den : ℤ) / den * 2 ^ (e - 1) := by
  have hden : 0 < den := by
    have hpos := onGrid_pos 1 (1 - e) (-gridExponent e)
    rwa [hgrid] at hpos
  have hratio := onGrid_eq 1 (1 - e) (-gridExponent e)
  rw [hgrid, Nat.cast_one, one_mul, ← neg_sub e 1, zpow_neg, zpow_neg] at hratio
  have hpos : (0 : ℚ) < den := by exact_mod_cast hden
  have hten : (10 : ℚ) ^ gridExponent e = num / den * 2 ^ (e - 1) := by
    rw [hratio]
    field_simp
  refine ⟨hden, ?_⟩
  rw [hten]
  push_cast
  field_simp

/-- What is near in rational numbers is near in whole ones. -/
theorem distance_le {num den : ℕ} (hgrid : onGrid 1 (1 - e) (-gridExponent e) = (num, den))
    (hclose : |(d : ℚ) * 10 ^ gridExponent e - m * 2 ^ (e - 1)| ≤ 2 ^ (e - 30)) :
    |(d : ℤ) * num - m * den| ≤ (den / 2 ^ 29 : ℕ) := by
  obtain ⟨hden, heq⟩ := distance_eq (d := d) (m := m) hgrid
  have hpos : (0 : ℚ) < den := by exact_mod_cast hden
  have hunit : (0 : ℚ) < 2 ^ (e - 1) := by positivity
  have hsmall : (2 : ℚ) ^ (e - 30) = 1 / 2 ^ 29 * 2 ^ (e - 1) := by
    rw [show e - 30 = e - 1 - 29 by ring, zpow_sub₀ two_ne_zero]
    norm_num
    ring
  rw [heq, abs_mul, abs_of_pos hunit, hsmall, mul_le_mul_iff_left₀ hunit, abs_div, abs_of_pos hpos,
    div_le_div_iff₀ hpos (by norm_num), one_mul] at hclose
  push_cast
  rw [Int.le_ediv_iff_mul_le (by norm_num)]
  exact_mod_cast hclose

/-- The fractions around `2^108 / 10^32` of which the upper one comes near it. -/
def exception : Bracket := ⟨14495598, 4466801, 22841339, 7038531⟩

theorem eq_of_close_exception {num den : ℕ} (hpos : 0 < m) (hm : m < 2 ^ 25)
    (hgrid : onGrid 1 (1 - -107) (-gridExponent (-107)) = (num, den))
    (hwhole : |(d : ℤ) * num - m * den| ≤ (den / 2 ^ 29 : ℕ)) : m = 22841339 := by
  obtain ⟨rfl, rfl⟩ : 2 ^ 108 = num ∧ 10 ^ 32 = den := Prod.mk.inj hgrid
  have hencloses : exception.Encloses (2 ^ 108) (10 ^ 32) := by constructor <;> norm_num [exception]
  have hbelow : 10 ^ 32 / 2 ^ 29 < exception.below (2 ^ 108) (10 ^ 32) := by
    norm_num [exception, Bracket.below]
  obtain ⟨v, hv, -⟩ := hencloses.multiple_of_near hbelow hpos (hm.trans (by decide)) hwhole
  simp only [exception] at hv
  omega

/-- A multiple of `10^p` that is near to a multiple of `2^(e-1)` without being the same. -/
theorem eq_of_close (hlow : -149 ≤ e) (hhigh : e ≤ 104) (hpos : 0 < m) (hm : m < 2 ^ 25)
    (hne : (d : ℚ) * 10 ^ gridExponent e ≠ m * 2 ^ (e - 1))
    (hclose : |(d : ℚ) * 10 ^ gridExponent e - m * 2 ^ (e - 1)| ≤ 2 ^ (e - 30)) :
    e = -107 ∧ m = 22841339 := by
  obtain ⟨num, den, hgrid⟩ : ∃ num den, onGrid 1 (1 - e) (-gridExponent e) = (num, den) := ⟨_, _, rfl⟩
  obtain ⟨hden, heq⟩ := distance_eq (d := d) (m := m) hgrid
  have hwhole := distance_le hgrid hclose
  have hdiffer : (d : ℤ) * num ≠ m * den := by
    intro hsame
    rw [sub_eq_zero.2 hsame, Int.cast_zero, zero_div, zero_mul, sub_eq_zero] at heq
    exact hne heq
  by_cases hexponent : e = -107
  · exact ⟨hexponent, eq_of_close_exception hpos hm (by rwa [hexponent] at hgrid) hwhole⟩
  · exfalso
    rcases isClear hlow hhigh hexponent with hsmall | hclear
    · -- Whole numbers that differ do so by one.
      rw [hgrid] at hsmall
      have hone := Int.one_le_abs (sub_ne_zero.2 hdiffer)
      omega
    · simp only [hgrid] at hclear
      have hencloses := (Bracket.encloses_whole num den).narrowTo (2 ^ 25) 12
      rcases hencloses.apart hclear.2 hpos (hm.trans_le hclear.1) with hsame | hgap
      · exact hdiffer hsame
      · omega

end Protobuf
