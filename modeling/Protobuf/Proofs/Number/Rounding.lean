import Mathlib.Algebra.Order.Field.Power
import Mathlib.Data.Rat.Floor
import Mathlib.Tactic.FieldSimp
import Mathlib.Tactic.GCongr
import Mathlib.Tactic.Linarith
import Mathlib.Tactic.Positivity
import Protobuf.Number.Binary

/-! # Rounding to whole numbers

A number goes to the nearest whole number of units, and if two are equally near to the even one.

* `RoundsTo`: the whole number that a number goes to, of which there is one.
* `FloatFormat.roundsTo_roundHalfEven`, `FloatFormat.roundsTo_roundToUnit`: so it is rounded.
* `FloatFormat.floorLog2_spec`: the power of two at or below a number.
-/

namespace Protobuf

structure RoundsTo (x : ℚ) (n : ℕ) : Prop where
  ge : (n : ℚ) - 1 / 2 ≤ x
  le : x ≤ n + 1 / 2
  tie : n % 2 = 1 → (n : ℚ) - 1 / 2 < x ∧ x < n + 1 / 2

namespace RoundsTo

variable {x : ℚ} {n n' : ℕ}

/-- A number is not rounded past a whole number. -/
theorem le_of_le (h : RoundsTo x n) (hx : x ≤ n') : n ≤ n' := by
  by_contra hlt
  have hsucc : (n' : ℚ) + 1 ≤ n := by exact_mod_cast Nat.lt_of_not_le hlt
  linarith [h.ge]

theorem ge_of_ge (h : RoundsTo x n) (hx : n' ≤ x) : n' ≤ n := by
  by_contra hlt
  have hsucc : (n : ℚ) + 1 ≤ n' := by exact_mod_cast Nat.lt_of_not_le hlt
  linarith [h.le]

theorem not_lt (h : RoundsTo x n) (h' : RoundsTo x n') : ¬n < n' := by
  intro hlt
  have hsucc : (n : ℚ) + 1 ≤ n' := by exact_mod_cast hlt
  -- The two are neighbours with the number half way between them, so one of them is odd.
  have hnext : n' ≤ n + 1 := by
    have hle : (n' : ℚ) ≤ ((n + 1 : ℕ) : ℚ) := by
      push_cast
      linarith [h.le, h'.ge]
    exact_mod_cast hle
  rcases Nat.mod_two_eq_zero_or_one n with heven | hodd
  · linarith [h.le, (h'.tie (by omega)).1]
  · linarith [h'.ge, (h.tie hodd).2]

theorem unique (h : RoundsTo x n) (h' : RoundsTo x n') : n = n' :=
  Nat.le_antisymm (Nat.le_of_not_lt (h'.not_lt h)) (Nat.le_of_not_lt (h.not_lt h'))

end RoundsTo

theorem cast_pow_toNat (b : ℕ) {e : ℤ} (he : 0 ≤ e) : ((Nat.pow b e.toNat : ℕ) : ℚ) = (b : ℚ) ^ e := by
  obtain ⟨n, rfl⟩ := Int.eq_ofNat_of_zero_le he
  simp

theorem cast_pow_neg_toNat (b : ℕ) {e : ℤ} (he : e ≤ 0) :
    ((Nat.pow b (-e).toNat : ℕ) : ℚ) = ((b : ℚ) ^ e)⁻¹ := by
  rw [cast_pow_toNat b (by omega), zpow_neg]

namespace FloatFormat

variable {num den : ℕ}

/-! ## To a whole number of units -/

theorem roundsTo_roundHalfEven (num : ℕ) (hden : 0 < den) :
    RoundsTo (num / den) (roundHalfEven num den) := by
  have hpos : (0 : ℚ) < den := by exact_mod_cast hden
  have hnum : (num : ℚ) = den * (num / den : ℕ) + (num % den : ℕ) := by
    exact_mod_cast (Nat.div_add_mod num den).symm
  have hrest : ((num % den : ℕ) : ℚ) < den := by exact_mod_cast Nat.mod_lt num hden
  have hrest' : (0 : ℚ) ≤ (num % den : ℕ) := Nat.cast_nonneg _
  unfold roundHalfEven
  generalize num / den = q at hnum ⊢
  generalize num % den = r at hnum hrest hrest' ⊢
  have hsplit : (num : ℚ) / den = q + r / den := by
    rw [hnum, add_div, mul_div_cancel_left₀ _ hpos.ne']
  have hzero : 0 ≤ (r : ℚ) / den := by positivity
  have hone : (r : ℚ) / den < 1 := (div_lt_one hpos).2 hrest
  have hnext : ((q + 1 : ℕ) : ℚ) = q + 1 := by push_cast; rfl
  rw [hsplit]
  -- The rest is less than half a unit, more than that or just as much.
  by_cases hbelow : 2 * r < den
  · have hhalf : (r : ℚ) / den < 1 / 2 := by
      rw [div_lt_iff₀ hpos]
      linarith [show (2 : ℚ) * r < den by exact_mod_cast hbelow]
    simp only [if_pos hbelow]
    exact ⟨by linarith, by linarith, fun _ => ⟨by linarith, by linarith⟩⟩
  by_cases habove : den < 2 * r
  · have hhalf : 1 / 2 < (r : ℚ) / den := by
      rw [lt_div_iff₀ hpos]
      linarith [show (den : ℚ) < 2 * r by exact_mod_cast habove]
    simp only [if_neg hbelow, if_pos habove]
    exact ⟨by linarith, by linarith, fun _ => ⟨by linarith, by linarith⟩⟩
  · have hhalf : (r : ℚ) / den = 1 / 2 := by
      rw [div_eq_iff hpos.ne']
      linarith [show (2 : ℚ) * r = den by exact_mod_cast (by omega : 2 * r = den)]
    simp only [if_neg hbelow, if_neg habove]
    split
    · exact ⟨by linarith, by linarith, by omega⟩
    · exact ⟨by linarith, by linarith, by omega⟩

/-- The exponent of a number: the power of two at or below it. -/
theorem floorLog2_spec (hnum : 0 < num) (hden : 0 < den) :
    (2 : ℚ) ^ floorLog2 num den ≤ num / den ∧ (num : ℚ) / den < 2 ^ (floorLog2 num den + 1) := by
  have hpos : (0 : ℚ) < den := by exact_mod_cast hden
  have hlow : (2 : ℚ) ^ (num.log2 : ℤ) ≤ num := by exact_mod_cast Nat.log2_self_le hnum.ne'
  have hhigh : (num : ℚ) < 2 ^ ((num.log2 : ℤ) + 1) := by exact_mod_cast Nat.lt_log2_self
  have hlow' : (2 : ℚ) ^ (den.log2 : ℤ) ≤ den := by exact_mod_cast Nat.log2_self_le hden.ne'
  have hhigh' : (den : ℚ) < 2 ^ ((den.log2 : ℤ) + 1) := by exact_mod_cast Nat.lt_log2_self
  unfold floorLog2
  generalize (num.log2 : ℤ) = a at hlow hhigh ⊢
  generalize (den.log2 : ℤ) = b at hlow' hhigh' ⊢
  -- The quotient lies between the powers on both sides of the difference.
  have habove : (num : ℚ) / den < 2 ^ (a - b + 1) := by
    rw [div_lt_iff₀ hpos]
    calc (num : ℚ) < 2 ^ (a + 1) := hhigh
      _ = 2 ^ (a - b + 1) * 2 ^ b := by rw [← zpow_add₀ two_ne_zero]; congr 1; ring
      _ ≤ 2 ^ (a - b + 1) * den := by gcongr
  have hbelow : (2 : ℚ) ^ (a - b - 1) ≤ num / den := by
    rw [le_div_iff₀ hpos]
    calc (2 : ℚ) ^ (a - b - 1) * den ≤ 2 ^ (a - b - 1) * 2 ^ (b + 1) := by gcongr
      _ = 2 ^ a := by rw [← zpow_add₀ two_ne_zero]; congr 1; ring
      _ ≤ num := hlow
  generalize a - b = k at habove hbelow ⊢
  rcases le_or_gt 0 k with hk | hk
  · have hdecide : den * Nat.pow 2 k.toNat ≤ num ↔ (2 : ℚ) ^ k ≤ num / den := by
      rw [le_div_iff₀ hpos, ← Nat.cast_le (α := ℚ), Nat.cast_mul, cast_pow_toNat 2 hk, mul_comm]
      rfl
    simp only [if_pos hk, hdecide]
    split
    · exact ⟨by assumption, habove⟩
    · exact ⟨hbelow, by rw [sub_add_cancel]; exact lt_of_not_ge (by assumption)⟩
  · have hdecide : den ≤ num * Nat.pow 2 (-k).toNat ↔ (2 : ℚ) ^ k ≤ num / den := by
      rw [le_div_iff₀ hpos, ← Nat.cast_le (α := ℚ), Nat.cast_mul, cast_pow_neg_toNat 2 hk.le,
        ← div_eq_mul_inv, le_div_iff₀ (by positivity), mul_comm]
      rfl
    simp only [if_neg hk.not_ge, hdecide]
    split
    · exact ⟨by assumption, habove⟩
    · exact ⟨hbelow, by rw [sub_add_cancel]; exact lt_of_not_ge (by assumption)⟩

theorem roundsTo_roundToUnit (num : ℕ) (hden : 0 < den) (e : ℤ) :
    RoundsTo (num / den / 2 ^ e) (roundToUnit num den e) := by
  unfold roundToUnit
  split
  · rename_i he
    have hpow : 0 < Nat.pow 2 e.toNat := Nat.two_pow_pos _
    have h := roundsTo_roundHalfEven num (Nat.mul_pos hden hpow)
    rwa [Nat.cast_mul, cast_pow_toNat 2 he, ← div_div] at h
  · rename_i he
    have h := roundsTo_roundHalfEven (num * Nat.pow 2 (-e).toNat) hden
    rwa [Nat.cast_mul, cast_pow_neg_toNat 2 (by omega), mul_div_right_comm, ← div_eq_mul_inv] at h

end FloatFormat

end Protobuf
