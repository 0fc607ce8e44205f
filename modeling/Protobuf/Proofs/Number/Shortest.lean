import Protobuf.Number.Decimal
import Protobuf.Proofs.Number.Format

/-! # The shortest decimal

The search for the shortest decimal of a binary number ends, and what it finds is rounded back to
the number.

* `RoundingInterval.Holds`: the numbers of a rounding interval.
* `FloatFormat.Nearest.pattern_eq`: they are rounded to the value that the interval is for.
* `RoundingInterval.IsNearest`: the multiple of a power of ten that is nearest to the value.
* `RoundingInterval.isNearest_of_nearest?`: what is found on one grid.
* `shortestOf_spec`: the shortest decimal is such a multiple.
-/

namespace Protobuf

namespace Decimal

def RoundingInterval.Holds (i : RoundingInterval) (x : ℚ) : Prop :=
  if i.closed then i.low * 2 ^ i.scale ≤ x ∧ x ≤ i.high * 2 ^ i.scale
  else i.low * 2 ^ i.scale < x ∧ x < i.high * 2 ^ i.scale

end Decimal

/-! ## Rounding back -/

namespace FloatFormat

open Decimal

variable {fmt : FloatFormat} {m n : ℕ} {e e' : ℤ} {x : ℚ}

theorem zpow_sub_two (e : ℤ) : (2 : ℚ) ^ (e - 2) = 2 ^ e / 4 := by
  rw [zpow_sub₀ two_ne_zero]
  norm_num

/-- The ends of a rounding interval: half a unit below and above the value, but a quarter below
    it if the numbers there are closer together. -/
theorem holds_interval (hx : (interval fmt m e).Holds x) (hm : 0 < m) :
    (m - 1 / 2) * 2 ^ e ≤ x ∧ x ≤ (m + 1 / 2) * 2 ^ e ∧
      (m = fmt.hiddenBit → fmt.minExponent < e → (m - 1 / 4) * 2 ^ e ≤ x) ∧
      (m % 2 = 1 → (m - 1 / 2) * 2 ^ e < x ∧ x < (m + 1 / 2) * 2 ^ e) := by
  have hunit : (0 : ℚ) < 2 ^ e := by positivity
  -- The interval counts in quarters of a unit.
  have hhigh : ((4 * m + 2 : ℕ) : ℚ) * 2 ^ (e - 2) = (m + 1 / 2) * 2 ^ e := by
    rw [zpow_sub_two]
    push_cast
    ring
  have hlow : ((4 * m - 2 : ℕ) : ℚ) * 2 ^ (e - 2) = (m - 1 / 2) * 2 ^ e := by
    rw [zpow_sub_two, Nat.cast_sub (by omega)]
    push_cast
    ring
  have hbinade : ((4 * m - 1 : ℕ) : ℚ) * 2 ^ (e - 2) = (m - 1 / 4) * 2 ^ e := by
    rw [zpow_sub_two, Nat.cast_sub (by omega)]
    push_cast
    ring
  have hquarter : (m - 1 / 2) * 2 ^ e ≤ (m - 1 / 4 : ℚ) * 2 ^ e := by gcongr; norm_num
  unfold RoundingInterval.Holds interval at hx
  simp only [hhigh, decide_eq_true_eq] at hx
  by_cases hat : m = fmt.hiddenBit ∧ fmt.minExponent < e
  · simp only [if_pos hat, hbinade] at hx
    split at hx
    · exact ⟨hquarter.trans hx.1, hx.2, fun _ _ => hx.1, by omega⟩
    · exact ⟨hquarter.trans hx.1.le, hx.2.le, fun _ _ => hx.1.le,
        fun _ => ⟨hquarter.trans_lt hx.1, hx.2⟩⟩
  · simp only [if_neg hat, hlow] at hx
    split at hx
    · exact ⟨hx.1, hx.2, fun h h' => absurd ⟨h, h'⟩ hat, by omega⟩
    · exact ⟨hx.1.le, hx.2.le, fun h h' => absurd ⟨h, h'⟩ hat, fun _ => hx⟩

theorem zpow_add_fractionBits (fmt : FloatFormat) (e : ℤ) :
    (2 : ℚ) ^ (e + fmt.fractionBits) = fmt.hiddenBit * 2 ^ e := by
  rw [cast_hiddenBit, zpow_add₀ two_ne_zero, mul_comm]

/-- A number that is below all those with the exponent of the value is rounded up to the value, the
    first of them. -/
theorem Nearest.pattern_eq_of_lt (h : fmt.Canonical m e) (hm : 0 < m)
    (hx : (interval fmt m e).Holds x) (hmin : e ≠ fmt.minExponent)
    (hlt : x < fmt.hiddenBit * 2 ^ e) (hn : fmt.Nearest x n e') :
    fmt.pattern n e' = fmt.pattern m e := by
  obtain ⟨hlow, -, hbinade, -⟩ := holds_interval hx hm
  have hunit : (0 : ℚ) < 2 ^ (e - 1) := by positivity
  have hhalf : (2 : ℚ) ^ e = 2 * 2 ^ (e - 1) := by
    rw [← zpow_one_add₀ two_ne_zero]
    congr 1
    ring
  have hleast := h.least
  have hm' : m = fmt.hiddenBit := by
    refine le_antisymm ?_ (h.hidden.resolve_right hmin)
    by_contra hlarge
    have hnext : (fmt.hiddenBit : ℚ) + 1 ≤ m := by exact_mod_cast Nat.lt_of_not_le hlarge
    nlinarith
  have hclose := hbinade hm' (by omega)
  rw [hhalf] at hclose hlt
  have hone : (1 : ℚ) ≤ fmt.hiddenBit := by exact_mod_cast fmt.hiddenBit_pos
  have hlow' : (2 : ℚ) ^ (e - 1 + fmt.fractionBits) ≤ x := by
    rw [zpow_add_fractionBits]
    rw [hm'] at hclose
    nlinarith
  have hhigh' : x < 2 ^ (e - 1 + fmt.fractionBits + 1) := by
    rw [zpow_add_one₀ two_ne_zero, zpow_add_fractionBits]
    linarith
  obtain rfl := hn.exponent_eq (by omega) hhigh' (.inr hlow')
  -- In the smaller units below the value it is rounded to twice the hidden bit.
  have hrounds : RoundsTo (x / 2 ^ (e - 1)) (2 * fmt.hiddenBit) := by
    rw [hm'] at hclose
    refine ⟨?_, ?_, by omega⟩
    · rw [le_div_iff₀ hunit]
      push_cast
      linarith
    · rw [div_le_iff₀ hunit]
      push_cast
      linarith
  have hexponent : (e - fmt.minExponent).toNat = (e - 1 - fmt.minExponent).toNat + 1 := by omega
  rw [hn.rounds.unique hrounds, hm', pattern, pattern, hexponent]
  ring

/-- A number that a rounding interval holds is rounded to the value of the interval. -/
theorem Nearest.pattern_eq (h : fmt.Canonical m e) (hm : 0 < m) (hx : (interval fmt m e).Holds x)
    (hn : fmt.Nearest x n e') : fmt.pattern n e' = fmt.pattern m e := by
  obtain ⟨hlow, hhigh, -, htie⟩ := holds_interval hx hm
  have hunit : (0 : ℚ) < 2 ^ e := by positivity
  have hlt : (m : ℚ) + 1 ≤ 2 * fmt.hiddenBit := by exact_mod_cast h.lt
  have hbelow : x < 2 ^ (e + fmt.fractionBits + 1) := by
    rw [zpow_add_one₀ two_ne_zero, zpow_add_fractionBits]
    nlinarith
  by_cases hle : e = fmt.minExponent ∨ (2 : ℚ) ^ (e + fmt.fractionBits) ≤ x
  · obtain rfl := hn.exponent_eq h.least hbelow hle
    have hrounds : RoundsTo (x / 2 ^ e') m := by
      refine ⟨?_, ?_, fun hodd => ⟨?_, ?_⟩⟩
      · rwa [le_div_iff₀ hunit]
      · rwa [div_le_iff₀ hunit]
      · rw [lt_div_iff₀ hunit]
        exact (htie hodd).1
      · rw [div_lt_iff₀ hunit]
        exact (htie hodd).2
    rw [hn.rounds.unique hrounds]
  · rw [not_or, not_le, zpow_add_fractionBits] at hle
    exact hn.pattern_eq_of_lt h hm hx hle.1 hle.2

theorem ofValue_of_holds (h : fmt.Canonical m e) (hm : 0 < m) {m' : ℕ} (hm' : 0 < m')
    (hx : (interval fmt m e).Holds (m' * 2 ^ e')) (negative : Bool) :
    fmt.ofValue (.finite negative m' e') = fmt.withSign negative (fmt.pattern m e) := by
  obtain ⟨n, e'', hnearest, hbits⟩ := exists_nearest_scaled fmt negative hm' e'
  rw [ofValue, hbits, hnearest.pattern_eq h hm hx, min_eq_right (pattern_lt h).le]

end FloatFormat

namespace Decimal

/-! ## Grids of powers of ten -/

theorem zpow_eq_div (b : ℕ) (e : ℤ) :
    (b : ℚ) ^ e = (Nat.pow b e.toNat : ℕ) / (Nat.pow b (-e).toNat : ℕ) := by
  rcases le_total 0 e with he | he
  · rw [cast_pow_toNat b he, show (-e).toNat = 0 by omega]
    simp
  · rw [cast_pow_neg_toNat b he, show e.toNat = 0 by omega]
    simp

theorem ten_zpow_le_eight_zpow {k : ℤ} (hk : k ≤ 0) : (10 : ℚ) ^ k ≤ 8 ^ k := by
  obtain ⟨n, rfl⟩ : ∃ n : ℕ, k = -n := ⟨(-k).toNat, by omega⟩
  rw [zpow_neg, zpow_neg, zpow_natCast, zpow_natCast]
  gcongr
  norm_num

theorem onGrid_pos (n : ℕ) (scale k : ℤ) : 0 < (onGrid n scale k).2 :=
  Nat.mul_pos (Nat.two_pow_pos _) (Nat.pow_pos (by decide))

theorem onGrid_eq (n : ℕ) (scale k : ℤ) :
    ((onGrid n scale k).1 : ℚ) / (onGrid n scale k).2 = n * 2 ^ scale / 10 ^ k := by
  have htwo := zpow_eq_div 2 scale
  have hten := zpow_eq_div 10 k
  push_cast at htwo hten
  rw [onGrid, htwo, hten]
  push_cast
  rw [mul_div_assoc', div_div_div_eq]

theorem onGrid_le_iff {n d : ℕ} {scale k : ℤ} :
    (onGrid n scale k).1 ≤ d * (onGrid n scale k).2 ↔ (n : ℚ) * 2 ^ scale ≤ d * 10 ^ k := by
  have hpos : (0 : ℚ) < (onGrid n scale k).2 := by exact_mod_cast onGrid_pos n scale k
  rw [← div_le_iff₀ (by positivity), ← onGrid_eq, div_le_iff₀ hpos]
  exact_mod_cast Iff.rfl

theorem le_onGrid_iff {n d : ℕ} {scale k : ℤ} :
    d * (onGrid n scale k).2 ≤ (onGrid n scale k).1 ↔ (d : ℚ) * 10 ^ k ≤ n * 2 ^ scale := by
  have hpos : (0 : ℚ) < (onGrid n scale k).2 := by exact_mod_cast onGrid_pos n scale k
  rw [← le_div_iff₀ (by positivity), ← onGrid_eq, le_div_iff₀ hpos]
  exact_mod_cast Iff.rfl

namespace RoundingInterval

variable {i : RoundingInterval} {d : ℕ} {k : ℤ} {tie : TieRule}

theorem contains_iff : i.contains d k = true ↔ i.Holds (d * 10 ^ k) := by
  have hden : (onGrid i.high i.scale k).2 = (onGrid i.low i.scale k).2 := rfl
  unfold contains Holds
  simp only [← hden]
  split
  · rw [decide_eq_true_eq, ← onGrid_le_iff, ← le_onGrid_iff]
    rfl
  · rw [decide_eq_true_eq, ← not_le, ← not_le, hden, le_onGrid_iff, not_le, ← hden, onGrid_le_iff,
      not_le]

theorem Holds.between {a b c : ℚ} (ha : i.Holds a) (hb : i.Holds b) (hac : a ≤ c) (hcb : c ≤ b) :
    i.Holds c := by
  by_cases hclosed : i.closed = true
  · simp only [Holds, if_pos hclosed] at *
    exact ⟨ha.1.trans hac, hcb.trans hb.2⟩
  · simp only [Holds, if_neg hclosed] at *
    exact ⟨ha.1.trans_le hac, hcb.trans_lt hb.2⟩

/-! ## The nearest multiple -/

/-- The value that an interval is for. -/
def center (i : RoundingInterval) : ℚ := i.value * 2 ^ i.scale

/-- A multiple of `10^k` that an interval holds, and none that it holds is nearer to the value. -/
structure IsNearest (i : RoundingInterval) (d : ℕ) (k : ℤ) : Prop where
  holds : i.Holds (d * 10 ^ k)
  le : ∀ c : ℕ, 0 < c → i.Holds (c * 10 ^ k) → |d * 10 ^ k - i.center| ≤ |c * 10 ^ k - i.center|

/-- The multiples of `10^k` next to the value are `b` and `b + 1` times `10^k`, and the value is
    `r / den` of the way from one to the other. -/
structure Between (i : RoundingInterval) (k : ℤ) (b r den : ℕ) : Prop where
  below : (b : ℚ) * 10 ^ k ≤ i.center
  above : i.center < (b + 1 : ℕ) * 10 ^ k
  rest : i.center - b * 10 ^ k = r / den * 10 ^ k
  den_pos : 0 < den

theorem between_onGrid (i : RoundingInterval) (k : ℤ) :
    i.Between k ((onGrid i.value i.scale k).1 / (onGrid i.value i.scale k).2)
      ((onGrid i.value i.scale k).1 % (onGrid i.value i.scale k).2)
      (onGrid i.value i.scale k).2 := by
  have hden := onGrid_pos i.value i.scale k
  have hgrid : (0 : ℚ) < 10 ^ k := by positivity
  have hcenter : i.center =
      (onGrid i.value i.scale k).1 / (onGrid i.value i.scale k).2 * 10 ^ k := by
    rw [onGrid_eq, center, div_mul_cancel₀ _ hgrid.ne']
  refine ⟨le_onGrid_iff.1 (Nat.div_mul_le_self _ _), lt_of_not_ge fun h => ?_, ?_, hden⟩
  · have hle := le_onGrid_iff.2 h
    rw [Nat.mul_comm] at hle
    exact (Nat.lt_mul_div_succ _ hden).not_ge hle
  · have hnum := Nat.div_add_mod (onGrid i.value i.scale k).1 (onGrid i.value i.scale k).2
    have hpos : (0 : ℚ) < (onGrid i.value i.scale k).2 := by exact_mod_cast hden
    rw [hcenter]
    nth_rewrite 1 [← hnum]
    push_cast
    field_simp
    ring

namespace Between

variable {b r den : ℕ}

theorem abs_below (h : i.Between k b r den) :
    |(b : ℚ) * 10 ^ k - i.center| = i.center - b * 10 ^ k := by
  rw [abs_sub_comm, abs_of_nonneg (sub_nonneg.2 h.below)]

theorem abs_above (h : i.Between k b r den) :
    |((b + 1 : ℕ) : ℚ) * 10 ^ k - i.center| = (b + 1 : ℕ) * 10 ^ k - i.center :=
  abs_of_pos (sub_pos.2 h.above)

theorem step_eq (h : i.Between k b r den) :
    (b + 1 : ℕ) * 10 ^ k - i.center = (1 - r / den : ℚ) * 10 ^ k := by
  have hrest := h.rest
  push_cast
  linarith

theorem le_above (h : i.Between k b r den) (hle : 2 * r ≤ den) :
    i.center - b * 10 ^ k ≤ (b + 1 : ℕ) * 10 ^ k - i.center := by
  have hpos : (0 : ℚ) < den := by exact_mod_cast h.den_pos
  have hle' : (2 : ℚ) * r ≤ den := by exact_mod_cast hle
  have hhalf : (r : ℚ) / den ≤ 1 - r / den := by
    rw [le_sub_iff_add_le, ← add_div, div_le_one hpos]
    linarith
  rw [h.rest, h.step_eq]
  gcongr

theorem le_below (h : i.Between k b r den) (hle : den ≤ 2 * r) :
    (b + 1 : ℕ) * 10 ^ k - i.center ≤ i.center - b * 10 ^ k := by
  have hpos : (0 : ℚ) < den := by exact_mod_cast h.den_pos
  have hle' : (den : ℚ) ≤ 2 * r := by exact_mod_cast hle
  have hhalf : 1 - r / den ≤ (r : ℚ) / den := by
    rw [sub_le_iff_le_add, ← add_div, one_le_div hpos]
    linarith
  rw [h.rest, h.step_eq]
  gcongr

/-- Of the multiples next to the value one is the nearest that the interval holds, if it holds
    one at all. -/
theorem isNearest (h : i.Between k b r den) (inside : i.Holds i.center)
    (holds : i.Holds (d * 10 ^ k))
    (hb : 0 < b → i.Holds (b * 10 ^ k) → |d * 10 ^ k - i.center| ≤ i.center - b * 10 ^ k)
    (hb' : i.Holds ((b + 1 : ℕ) * 10 ^ k) →
      |d * 10 ^ k - i.center| ≤ (b + 1 : ℕ) * 10 ^ k - i.center) :
    i.IsNearest d k := by
  refine ⟨holds, fun c hc hheld => ?_⟩
  have hgrid : (0 : ℚ) < 10 ^ k := by positivity
  rcases Nat.lt_or_ge b c with hlt | hge
  · have hmono : ((b + 1 : ℕ) : ℚ) * 10 ^ k ≤ c * 10 ^ k := by
      gcongr
      omega
    calc |d * 10 ^ k - i.center| ≤ (b + 1 : ℕ) * 10 ^ k - i.center :=
          hb' (inside.between hheld h.above.le hmono)
      _ ≤ c * 10 ^ k - i.center := by linarith
      _ ≤ |c * 10 ^ k - i.center| := le_abs_self _
  · have hmono : (c : ℚ) * 10 ^ k ≤ b * 10 ^ k := by gcongr
    calc |d * 10 ^ k - i.center| ≤ i.center - b * 10 ^ k :=
          hb (by omega) (hheld.between inside hmono h.below)
      _ ≤ -(c * 10 ^ k - i.center) := by linarith
      _ ≤ |c * 10 ^ k - i.center| := neg_le_abs _

theorem isNearest_below (h : i.Between k b r den) (inside : i.Holds i.center)
    (hheld : i.contains b k = true) (hle : 2 * r ≤ den ∨ ¬i.contains (b + 1) k = true) :
    i.IsNearest b k := by
  refine h.isNearest inside (contains_iff.1 hheld) (fun _ _ => h.abs_below.le) fun hother => ?_
  rw [h.abs_below]
  exact h.le_above (hle.resolve_right (not_not.2 (contains_iff.2 hother)))

theorem isNearest_above (h : i.Between k b r den) (inside : i.Holds i.center)
    (hheld : i.contains (b + 1) k = true)
    (hle : den ≤ 2 * r ∨ ¬(0 < b ∧ i.contains b k = true)) : i.IsNearest (b + 1) k := by
  refine h.isNearest inside (contains_iff.1 hheld) (fun hpos hother => ?_) fun _ => h.abs_above.le
  rw [h.abs_above]
  exact h.le_below (hle.resolve_right (not_not.2 ⟨hpos, contains_iff.2 hother⟩))

end Between

theorem isNearest_of_nearest? (inside : i.Holds i.center) (h : i.nearest? tie k = some d) :
    i.IsNearest d k := by
  have hbetween := between_onGrid i k
  unfold nearest? at h
  simp only [Bool.and_eq_true, decide_eq_true_eq] at h
  split at h
  · rename_i hboth
    obtain ⟨⟨-, hheld⟩, hheld'⟩ := hboth
    split at h
    · rename_i hless
      cases h
      exact hbetween.isNearest_below inside hheld (.inl hless.le)
    split at h
    · rename_i hmore
      cases h
      exact hbetween.isNearest_above inside hheld' (.inl hmore.le)
    · -- Both are as near, and the rule for ties picks one.
      rename_i hless hmore
      have hlower := hbetween.isNearest_below inside hheld (.inl (not_lt.1 hmore))
      have hupper := hbetween.isNearest_above inside hheld' (.inl (not_lt.1 hless))
      split at h
      · cases h
        exact hupper
      · split at h <;> cases h <;> assumption
  · -- The interval holds at most one of the neighbours.
    rename_i hone
    split at h
    · rename_i hheld
      cases h
      exact hbetween.isNearest_below inside hheld.2 (.inr fun hother => hone ⟨hheld, hother⟩)
    · split at h
      · rename_i hheld
        cases h
        exact hbetween.isNearest_above inside hheld (.inr fun hother => hone ⟨hother, hheld⟩)
      · cases h

/-- A grid that is finer than the upper part of an interval has a multiple in it. -/
theorem isSome_nearest? (inside : i.Holds i.center) (fine : i.center + 10 ^ k < i.high * 2 ^ i.scale) :
    (i.nearest? tie k).isSome := by
  obtain ⟨hbelow, habove, -, -⟩ := between_onGrid i k
  -- The multiple above the value is in, so at worst that one is taken.
  have hheld :
      i.contains ((onGrid i.value i.scale k).1 / (onGrid i.value i.scale k).2 + 1) k = true := by
    rw [contains_iff]
    have hhigh : i.Holds (i.center + 10 ^ k) := by
      have hgrid : (0 : ℚ) < 10 ^ k := by positivity
      by_cases hclosed : i.closed = true
      · simp only [Holds, if_pos hclosed] at *
        exact ⟨by linarith, fine.le⟩
      · simp only [Holds, if_neg hclosed] at *
        exact ⟨by linarith, fine⟩
    refine inside.between hhigh habove.le ?_
    push_cast
    linarith
  unfold nearest?
  simp only [hheld, Bool.and_true, if_true]
  split
  · split
    · rfl
    · split
      · rfl
      · cases tie
        · simp only
          split <;> rfl
        · rfl
  · rfl

theorem search_eq {steps : ℕ} {top last : ℤ} (hlast : top - steps ≤ last)
    (hits : ∀ k ≤ last, (i.nearest? tie k).isSome) :
    ∃ d k, i.search tie steps top = (d, k) ∧ i.nearest? tie k = some d := by
  -- Each step takes a finer grid, and on the last one there is always a multiple.
  induction steps generalizing top with
  | zero =>
    obtain ⟨d, hd⟩ := Option.isSome_iff_exists.1 (hits top (by simpa using hlast))
    exact ⟨d, top, by rw [search, hd]; rfl, hd⟩
  | succ steps ih =>
    rw [search]
    cases hd : i.nearest? tie top with
    | some d => exact ⟨d, top, rfl, hd⟩
    | none => exact ih (by push_cast at hlast; omega)

end RoundingInterval

/-! ## The search -/

variable {fmt : FloatFormat} {m : ℕ} {e : ℤ}

theorem center_interval (fmt : FloatFormat) (m : ℕ) (e : ℤ) :
    (interval fmt m e).center = m * 2 ^ e := by
  rw [RoundingInterval.center, interval, FloatFormat.zpow_sub_two]
  push_cast
  ring

theorem holds_center (fmt : FloatFormat) (hm : 0 < m) (e : ℤ) :
    (interval fmt m e).Holds (interval fmt m e).center := by
  have hunit : (0 : ℚ) < 2 ^ (e - 2) := by positivity
  have hlow : (interval fmt m e).low < 4 * m := by
    unfold interval
    simp only
    split <;> omega
  have hbelow : ((interval fmt m e).low : ℚ) * 2 ^ (e - 2) < (4 * m : ℕ) * 2 ^ (e - 2) := by gcongr
  have habove : ((4 * m : ℕ) : ℚ) * 2 ^ (e - 2) < (4 * m + 2 : ℕ) * 2 ^ (e - 2) := by
    gcongr
    omega
  unfold RoundingInterval.Holds
  split
  · exact ⟨hbelow.le, habove.le⟩
  · exact ⟨hbelow, habove⟩

/-- The last grid of the search is finer than half a unit. -/
theorem ten_zpow_lt {k : ℤ} (hk : k ≤ min (e / 3 - 1) 0) : (10 : ℚ) ^ k < 2 ^ (e - 1) := by
  rcases le_or_gt 3 e with he | he
  · calc (10 : ℚ) ^ k ≤ 10 ^ (0 : ℤ) := zpow_le_zpow_right₀ (by norm_num) (by omega)
      _ = 2 ^ (0 : ℤ) := by norm_num
      _ < 2 ^ (e - 1) := zpow_lt_zpow_right₀ one_lt_two (by omega)
  · have height := ten_zpow_le_eight_zpow (show e / 3 ≤ 0 by omega)
    calc (10 : ℚ) ^ k ≤ 10 ^ (e / 3 - 1) := zpow_le_zpow_right₀ (by norm_num) (by omega)
      _ = 10 ^ (e / 3) / 10 := by rw [zpow_sub_one₀ (by norm_num), div_eq_mul_inv]
      _ < 8 ^ (e / 3) / 2 := by
        have hpos : (0 : ℚ) < 8 ^ (e / 3) := by positivity
        linarith
      _ = 2 ^ (3 * (e / 3) - 1) := by
        rw [zpow_sub_one₀ two_ne_zero, zpow_mul, div_eq_mul_inv]
        norm_num
      _ ≤ 2 ^ (e - 1) := zpow_le_zpow_right₀ one_le_two (by omega)

/-- The shortest decimal of a value is a multiple of a power of ten that is rounded to the value,
    and of such multiples the nearest. -/
theorem shortestOf_spec (fmt : FloatFormat) (tie : TieRule) (negative : Bool) (hm : 0 < m) (e : ℤ) :
    ∃ d k, shortestOf fmt tie negative m e = ⟨negative, d, k⟩ ∧ (interval fmt m e).IsNearest d k := by
  have inside := holds_center fmt hm e
  have hits : ∀ k ≤ min (e / 3 - 1) 0, ((interval fmt m e).nearest? tie k).isSome := by
    intro k hk
    refine RoundingInterval.isSome_nearest? inside ?_
    have hfine := ten_zpow_lt hk
    have hhalf : (2 : ℚ) ^ (e - 1) = 2 * 2 ^ (e - 2) := by
      rw [← zpow_one_add₀ two_ne_zero]
      congr 1
      ring
    calc (interval fmt m e).center + 10 ^ k < (4 * m : ℕ) * 2 ^ (e - 2) + 2 * 2 ^ (e - 2) := by
          rw [← hhalf]
          exact add_lt_add_right hfine _
      _ = (4 * m + 2 : ℕ) * 2 ^ (e - 2) := by push_cast; ring
  have hlast : searchTop m e - (searchTop m e - min (e / 3 - 1) 0).toNat ≤ min (e / 3 - 1) 0 := by
    omega
  obtain ⟨d, k, hsearch, hnearest⟩ := RoundingInterval.search_eq hlast hits
  refine ⟨d, k, ?_, RoundingInterval.isNearest_of_nearest? inside hnearest⟩
  rw [shortestOf, if_neg hm.ne']
  simp only [hsearch]

end Decimal

end Protobuf
