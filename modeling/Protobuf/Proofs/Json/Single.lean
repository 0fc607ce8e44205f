import Protobuf.Json.ScalarForm
import Protobuf.Proofs.Number.Decimal
import Protobuf.Proofs.Number.Narrowing

/-! # Single-precision numbers in JSON

A single-precision number is written as its shortest decimal.  What is read is a double-precision
number, the one nearest to the decimal, and that is rounded once more.

* `JsonForm.exists_read`: what is read from the shortest decimal of a value.
* `JsonForm.single_ofSingle_finite`: a value is read back if it is neither the greatest nor the one
  whose decimal is rounded to the point half way to the next.
* `JsonForm.single_ofSingle_iff`: the numbers that are read back.
-/

namespace Protobuf

open Decimal

namespace JsonForm

variable {x : Binary32} {negative : Bool} {m : ℕ} {e : ℤ}

theorem exceeds_iff {limit : ℕ} :
    exceeds limit (.finite negative m e) = true ↔ (limit : ℚ) < m * 2 ^ e := by
  rw [exceeds]
  split
  · rename_i hnonneg
    have hpower : ((m * Nat.pow 2 e.toNat : ℕ) : ℚ) = m * 2 ^ e := by
      rw [Nat.cast_mul, cast_pow_toNat 2 hnonneg]
      rfl
    rw [decide_eq_true_eq, ← hpower, Nat.cast_lt]
  · rename_i hnegative
    have hunit : (0 : ℚ) < 2 ^ e := by positivity
    rw [decide_eq_true_eq, ← Nat.cast_lt (α := ℚ), Nat.cast_mul, cast_pow_neg_toNat 2 (by omega),
      ← div_eq_mul_inv, Nat.cast_two, div_lt_iff₀ hunit]

theorem eq_pattern_single (h : x.denote = .finite negative m e) :
    FloatFormat.single.Canonical m e ∧
      x.bits.toNat = FloatFormat.single.withSign negative (FloatFormat.single.pattern m e) := by
  have hsign : FloatFormat.single.signBit = 2 ^ 31 := rfl
  refine FloatFormat.eq_pattern (by decide) ?_ h
  rw [hsign]
  exact x.bits.toNat_lt

/-- The values whose shortest decimal is rounded to another value or beyond all. -/
def Strays (m : ℕ) (e : ℤ) : Prop := m = 2 ^ 24 - 1 ∧ e = 104 ∨ m = 11420669 ∧ e = -107

theorem cast_maxSingle : (maxSingle : ℚ) = (2 ^ 24 - 1) * 2 ^ (104 : ℤ) := by
  rw [maxSingle, Nat.cast_mul, show (104 : ℤ) = (104 : ℕ) from rfl, zpow_natCast]
  norm_num

/-- A number in the rounding interval of a value that is not the greatest is not above the
    greatest. -/
theorem le_maxSingle (h : FloatFormat.single.Canonical m e) (hm : 0 < m)
    (hmax : ¬(m = 2 ^ 24 - 1 ∧ e = 104)) {y : ℚ} (hy : (interval .single m e).Holds y) :
    y ≤ maxSingle := by
  obtain ⟨hlt, -, hhigh, -⟩ := h.single_bounds
  have hend := (FloatFormat.holds_interval hy hm).2.1
  refine hend.trans ?_
  rw [cast_maxSingle]
  -- Below the greatest exponent there is room for a whole unit, and at it for one more step.
  rcases hhigh.lt_or_eq with hless | rfl
  · have hm' : (m : ℚ) + 1 ≤ 2 ^ 24 := by exact_mod_cast hlt
    have hpower : (2 : ℚ) ^ e ≤ 2 ^ (103 : ℤ) := zpow_le_zpow_right₀ one_le_two (by omega)
    calc ((m : ℚ) + 1 / 2) * 2 ^ e ≤ 2 ^ 24 * 2 ^ (103 : ℤ) := by gcongr; linarith
      _ = 2 ^ 23 * 2 ^ (104 : ℤ) := by
        rw [show (104 : ℤ) = 103 + 1 from rfl, zpow_add_one₀ two_ne_zero]
        ring
      _ ≤ (2 ^ 24 - 1) * 2 ^ (104 : ℤ) := by gcongr; norm_num
  · have hm' : (m : ℚ) + 2 ≤ 2 ^ 24 := by exact_mod_cast (by omega : m + 2 ≤ 2 ^ 24)
    gcongr
    linarith

/-- A number in the rounding interval of a value is of moderate size. -/
theorem moderate (h : FloatFormat.single.Canonical m e) (hm : 0 < m) {y : ℚ}
    (hy : (interval .single m e).Holds y) : 2 ^ (-1201 : ℤ) ≤ y ∧ y < 2 ^ (400 : ℤ) := by
  obtain ⟨hlt, hlow, hhigh, -⟩ := h.single_bounds
  obtain ⟨hbelow, habove, -⟩ := FloatFormat.holds_interval hy hm
  have hone : (1 : ℚ) ≤ m := by exact_mod_cast hm
  have hm' : (m : ℚ) + 1 ≤ 2 ^ 24 := by exact_mod_cast hlt
  have hunit : (0 : ℚ) < 2 ^ e := by positivity
  constructor
  · calc (2 : ℚ) ^ (-1201 : ℤ) ≤ 2 ^ (e - 1) := zpow_le_zpow_right₀ one_le_two (by omega)
      _ = 1 / 2 * 2 ^ e := by rw [zpow_sub_one₀ two_ne_zero]; ring
      _ ≤ (m - 1 / 2) * 2 ^ e := by gcongr; linarith
      _ ≤ y := hbelow
  · calc y ≤ (m + 1 / 2) * 2 ^ e := habove
      _ < 2 ^ (24 : ℤ) * 2 ^ e := by
        gcongr
        rw [show (24 : ℤ) = (24 : ℕ) from rfl, zpow_natCast]
        linarith
      _ = 2 ^ (24 + e) := (zpow_add₀ two_ne_zero _ _).symm
      _ ≤ 2 ^ (400 : ℤ) := zpow_le_zpow_right₀ one_le_two (by omega)

/-- What is read from the shortest decimal of a value that does not stray is in the rounding
    interval of the value. -/
theorem exists_read (h : FloatFormat.single.Canonical m e) (hm : 0 < m) (stays : ¬Strays m e)
    (negative : Bool) : ∃ m' e', 0 < m' ∧
      (shortestOf .single .up negative m e).toBinary64.denote = .finite negative m' e' ∧
      (interval .single m e).Holds (m' * 2 ^ e') := by
  obtain ⟨d, k, hshortest, hnearest⟩ := shortestOf_spec .single .up negative hm e
  obtain ⟨hlow, hhigh⟩ := moderate h hm hnearest.holds
  have hpositive : (0 : ℚ) < d * 10 ^ k := lt_of_lt_of_le (by positivity) hlow
  have hd : 0 < d := by
    rcases Nat.eq_zero_or_pos d with rfl | hd
    · simp at hpositive
    · exact hd
  obtain ⟨n, e₁, m', e', hn, hdenote, hvalue⟩ :=
    denote_toBinary64_moderate (d := ⟨negative, d, k⟩) hd hhigh
  have hholds : (interval .single m e).Holds (m' * 2 ^ e') := by
    rw [hvalue]
    -- The first rounding keeps within the interval, or it hits an end that is not part of it.
    rcases holds_or_end h hm hnearest.holds hn with hholds | ⟨hodd, l, hl, hend⟩
    · exact hholds
    · exact absurd (.inr (eq_of_end h hodd hnearest hn hl hend)) stays
  have hm' : 0 < m' := by
    rcases Nat.eq_zero_or_pos m' with rfl | hm'
    · have hpos := lt_of_lt_of_le (by positivity) (moderate h hm hholds).1
      simp at hpos
    · exact hm'
  exact ⟨m', e', hm', hshortest ▸ hdenote, hholds⟩

theorem ofSingle_finite (h : x.denote = .finite negative m e) :
    ofSingle x = .number (.float (shortestOf .single .up negative m e).toBinary64) := by
  rw [ofSingle, h]
  rfl

/-- A value that does not stray is read back. -/
theorem single_ofSingle_finite (h : x.denote = .finite negative m e) (hm : 0 < m)
    (stays : ¬Strays m e) : single (ofSingle x) = .ok x := by
  obtain ⟨hcanonical, hbits⟩ := eq_pattern_single h
  obtain ⟨m', e', hm', hdenote, hholds⟩ := exists_read hcanonical hm stays negative
  have hwithin : ¬exceeds maxSingle (.finite negative m' e') = true := by
    rw [exceeds_iff, not_lt]
    exact le_maxSingle hcanonical hm (fun hmax => stays (.inl hmax)) hholds
  rw [ofSingle_finite h, single, double]
  simp only [hdenote, if_neg hwithin]
  rw [Binary64.toBinary32, hdenote, FloatFormat.ofValue_of_holds hcanonical hm hm' hholds, ← hbits,
    UInt32.ofNat_toNat]

/-! ## Which numbers are read back -/

instance decidableEqOk {ε α : Type} [DecidableEq α] (r : Except ε α) (a : α) : Decidable (r = .ok a) :=
  match r with
  | .ok b => decidable_of_iff (b = a) (by rw [Except.ok.injEq])
  | .error _ => .isFalse nofun

def unread : List Binary32 := [⟨0x7F7FFFFF⟩, ⟨0xFF7FFFFF⟩, ⟨0x15AE43FD⟩, ⟨0x95AE43FD⟩]

theorem eq_of_toNat {n : ℕ} (h : x.bits.toNat = n) : x = ⟨UInt32.ofNat n⟩ := by
  rw [← h, UInt32.ofNat_toNat]

theorem mem_unread_of_strays (h : x.denote = .finite negative m e) (strays : Strays m e) :
    x ∈ unread := by
  rw [eq_of_toNat (eq_pattern_single h).2]
  rcases strays with ⟨rfl, rfl⟩ | ⟨rfl, rfl⟩ <;> cases negative <;> decide

theorem single_ofSingle_unread : ∀ x ∈ unread, single (ofSingle x) ≠ .ok x := by decide +kernel

theorem single_ofSingle_nan (h : x.denote = .nan) : single (ofSingle x) = .ok Binary32.nan := by
  have hwritten : ofSingle x = .string "NaN" := by rw [ofSingle, h, nonFinite?]
  rw [hwritten]
  rfl

theorem single_ofSingle_infinite (h : x.denote = .infinite negative) :
    single (ofSingle x) = .ok x := by
  rw [eq_of_toNat (FloatFormat.eq_infinity x.bits.toNat_lt h)]
  cases negative <;> rfl

theorem single_ofSingle_zero (h : x.denote = .finite negative 0 e) : single (ofSingle x) = .ok x := by
  obtain ⟨hcanonical, hbits⟩ := eq_pattern_single h
  obtain ⟨-, -, -, hhidden⟩ := hcanonical.single_bounds
  obtain rfl : e = -149 := by omega
  rw [eq_of_toNat hbits]
  cases negative <;> decide +kernel

/-- A number is read back as it was written, bit for bit, unless it is a NaN with a payload, the
    greatest number or `7.038531e-26`. -/
theorem single_ofSingle_iff (x : Binary32) :
    single (ofSingle x) = .ok x ↔ (x.denote = .nan → x = Binary32.nan) ∧ x ∉ unread := by
  cases hvalue : x.denote with
  | nan =>
    rw [single_ofSingle_nan hvalue, Except.ok.injEq]
    constructor
    · rintro rfl
      exact ⟨fun _ => rfl, by decide⟩
    · exact fun h => (h.1 rfl).symm
  | infinite negative =>
    have hread := single_ofSingle_infinite hvalue
    exact ⟨fun _ => ⟨nofun, fun hmem => single_ofSingle_unread x hmem hread⟩, fun _ => hread⟩
  | finite negative m e =>
    constructor
    · exact fun hread => ⟨nofun, fun hmem => single_ofSingle_unread x hmem hread⟩
    · rintro ⟨-, hmem⟩
      rcases Nat.eq_zero_or_pos m with rfl | hm
      · exact single_ofSingle_zero hvalue
      · exact single_ofSingle_finite hvalue hm fun strays => hmem (mem_unread_of_strays hvalue strays)

/-- The decimal of the greatest number is nearest to it, but above it and so refused.  That of
    `7.038531e-26` is read as the number next to it. -/
theorem single_ofSingle_strays :
    single (ofSingle ⟨0x7F7FFFFF⟩) =
        .error (.invalidNumber "340282350000000000000000000000000000000") ∧
      single (ofSingle ⟨0x15AE43FD⟩) = .ok ⟨0x15AE43FE⟩ := by
  have hdenote : Binary32.denote ⟨0x7F7FFFFF⟩ = .finite false (2 ^ 24 - 1) 104 := rfl
  have hdecimal : (shortestOf .single .up false (2 ^ 24 - 1) 104).toBinary64 =
      ⟨0x47EFFFFFE54DAFF8⟩ := by decide +kernel
  have habove : exceeds maxSingle (Binary64.denote ⟨0x47EFFFFFE54DAFF8⟩) = true := rfl
  have htext : plainText ⟨0x47EFFFFFE54DAFF8⟩ = "340282350000000000000000000000000000000" := by
    decide +kernel
  constructor
  · rw [ofSingle_finite hdenote, hdecimal, single, double]
    simp only [habove, if_true, htext]
  · decide +kernel

end JsonForm

end Protobuf
