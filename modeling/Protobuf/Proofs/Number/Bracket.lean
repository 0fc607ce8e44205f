import Mathlib.Tactic.LinearCombination
import Mathlib.Tactic.Linarith
import Mathlib.Tactic.Positivity
import Mathlib.Tactic.Ring

/-! # Fractions with small terms near a ratio

Two neighbouring fractions with a ratio between them bound how near any fraction with smaller
terms comes to it.

* `Bracket`, `Bracket.Encloses`: two neighbouring fractions, and the ratios between them.
* `Bracket.narrowTo`: neighbours with larger terms.
* `Bracket.Encloses.apart`: how far the fractions with smaller terms are from the ratio.
-/

namespace Protobuf

structure Bracket where
  p : ℕ
  q : ℕ
  p' : ℕ
  q' : ℕ
deriving Repr

namespace Bracket

structure Encloses (b : Bracket) (num den : ℕ) : Prop where
  unimodular : b.p' * b.q = b.p * b.q' + 1
  low : b.p * den ≤ num * b.q
  high : num * b.q' ≤ b.p' * den

def whole : Bracket := ⟨0, 1, 1, 0⟩

/-- How far the lower fraction is below the ratio. -/
def below (b : Bracket) (num den : ℕ) : ℕ := num * b.q - b.p * den

def above (b : Bracket) (num den : ℕ) : ℕ := b.p' * den - num * b.q'

def raise (b : Bracket) (times : ℕ) : Bracket := ⟨b.p + times * b.p', b.q + times * b.q', b.p', b.q'⟩

def lower (b : Bracket) (times : ℕ) : Bracket := ⟨b.p, b.q, b.p' + times * b.p, b.q' + times * b.q⟩

/-- How many times a fraction that is `far` from the ratio comes nearer by `near`. -/
def times (most far near : ℕ) : ℕ := if near = 0 then most else min most (far / near)

/-- Moves the lower fraction towards the ratio and then the upper one, as far as they go before
    the numerators are great enough. -/
def narrow (limit num den : ℕ) (b : Bracket) : Bracket :=
  let raised := b.raise (times ((limit - 1 - b.p) / b.p') (b.below num den) (b.above num den))
  raised.lower
    (times ((limit - 1 - raised.p') / raised.p) (raised.above num den) (raised.below num den))

/-- Narrows a bracket until the numerators are great enough, but in no more than so many steps. -/
def narrowTo (limit num den : ℕ) : (steps : ℕ) → Bracket → Bracket
  | 0, b => b
  | steps + 1, b =>
    if limit ≤ b.p + b.p' then b else narrowTo limit num den steps (b.narrow limit num den)

/-- The distances of both fractions from the ratio are more than some number, unless they are
    nothing at all. -/
def IsApart (b : Bracket) (num den gap : ℕ) : Prop :=
  (b.below num den = 0 ∨ gap < b.below num den) ∧ (b.above num den = 0 ∨ gap < b.above num den)

instance (b : Bracket) (num den gap : ℕ) : Decidable (b.IsApart num den gap) :=
  inferInstanceAs (Decidable (_ ∧ _))

variable {b : Bracket} {num den gap d m : ℕ}

theorem encloses_whole (num den : ℕ) : whole.Encloses num den := by
  constructor <;> simp [whole]

theorem times_mul_le (most far near : ℕ) : times most far near * near ≤ far := by
  rw [times]
  split
  · rename_i hzero
    rw [hzero, Nat.mul_zero]
    exact Nat.zero_le _
  · exact (Nat.mul_le_mul_right near (min_le_right _ _)).trans (Nat.div_mul_le_self far near)

namespace Encloses

theorem cast_below (h : b.Encloses num den) : (b.below num den : ℤ) = num * b.q - b.p * den := by
  rw [below, Nat.cast_sub h.low, Nat.cast_mul, Nat.cast_mul]

theorem cast_above (h : b.Encloses num den) : (b.above num den : ℤ) = b.p' * den - num * b.q' := by
  rw [above, Nat.cast_sub h.high, Nat.cast_mul, Nat.cast_mul]

theorem raise (h : b.Encloses num den) {times : ℕ} (hle : times * b.above num den ≤ b.below num den) :
    (b.raise times).Encloses num den := by
  have hunimodular : b.p' * (b.q + times * b.q') = (b.p + times * b.p') * b.q' + 1 :=
    calc b.p' * (b.q + times * b.q') = b.p' * b.q + times * b.p' * b.q' := by ring
      _ = (b.p + times * b.p') * b.q' + 1 := by
        rw [h.unimodular]
        ring
  have hlow : ((b.p + times * b.p') * den : ℤ) ≤ num * (b.q + times * b.q') := by
    have hle' : (times : ℤ) * b.above num den ≤ b.below num den := by exact_mod_cast hle
    rw [h.cast_below, h.cast_above] at hle'
    linarith
  exact ⟨hunimodular, by exact_mod_cast hlow, h.high⟩

theorem lower (h : b.Encloses num den) {times : ℕ} (hle : times * b.below num den ≤ b.above num den) :
    (b.lower times).Encloses num den := by
  have hunimodular : (b.p' + times * b.p) * b.q = b.p * (b.q' + times * b.q) + 1 :=
    calc (b.p' + times * b.p) * b.q = b.p' * b.q + times * b.p * b.q := by ring
      _ = b.p * (b.q' + times * b.q) + 1 := by
        rw [h.unimodular]
        ring
  have hhigh : (num * (b.q' + times * b.q) : ℤ) ≤ (b.p' + times * b.p) * den := by
    have hle' : (times : ℤ) * b.below num den ≤ b.above num den := by exact_mod_cast hle
    rw [h.cast_below, h.cast_above] at hle'
    linarith
  exact ⟨hunimodular, h.low, by exact_mod_cast hhigh⟩

theorem narrow (h : b.Encloses num den) (limit : ℕ) : (b.narrow limit num den).Encloses num den :=
  (h.raise (times_mul_le _ _ _)).lower (times_mul_le _ _ _)

theorem narrowTo (h : b.Encloses num den) (limit steps : ℕ) :
    (b.narrowTo limit num den steps).Encloses num den := by
  induction steps generalizing b with
  | zero => exact h
  | succ steps ih =>
    rw [Bracket.narrowTo]
    split
    · exact h
    · exact ih (h.narrow limit)

/-- A fraction with a numerator smaller than those of the bracket together is on the side of one
    of its fractions: its distance from the ratio is made of one or more times the distance of
    that fraction and of some times that of the other. -/
theorem distance (h : b.Encloses num den) (hpos : 0 < m) (hm : m < b.p + b.p') :
    (∃ u v : ℕ, 0 < u ∧
        (d : ℤ) * num - m * den = (u * b.below num den + v * b.above num den : ℕ)) ∨
      ∃ u v : ℕ, 0 < v ∧
        (m : ℤ) * den - d * num = (u * b.below num den + v * b.above num den : ℕ) ∧
        (u = 0 → m = v * b.p' ∧ d = v * b.q') := by
  have hdet : (b.p' : ℤ) * b.q = b.p * b.q' + 1 := by exact_mod_cast h.unimodular
  -- The fraction is a combination of the two of the bracket.
  obtain ⟨u, hu⟩ : ∃ u : ℤ, u = d * b.p' - m * b.q' := ⟨_, rfl⟩
  obtain ⟨v, hv⟩ : ∃ v : ℤ, v = m * b.q - d * b.p := ⟨_, rfl⟩
  have hd : (d : ℤ) = u * b.q + v * b.q' := by
    rw [hu, hv]
    linear_combination (-(d : ℤ)) * hdet
  have hm' : (m : ℤ) = u * b.p + v * b.p' := by
    rw [hu, hv]
    linear_combination (-(m : ℤ)) * hdet
  have hdistance : (d : ℤ) * num - m * den = u * b.below num den - v * b.above num den := by
    rw [hd, hm', h.cast_below, h.cast_above]
    ring
  have hp : (0 : ℤ) ≤ b.p := Int.natCast_nonneg _
  have hp' : (0 : ℤ) ≤ b.p' := Int.natCast_nonneg _
  -- A numerator that is positive but less than `p + p'` makes the two parts differ in sign.
  rcases le_or_gt u 0 with hside | hside
  · have hother : 0 < v := by
      by_contra hv
      have hnonpos := mul_nonpos_of_nonpos_of_nonneg (not_lt.1 hv) hp'
      have hnonpos' := mul_nonpos_of_nonpos_of_nonneg hside hp
      omega
    obtain ⟨n, rfl⟩ := Int.exists_eq_neg_ofNat hside
    obtain ⟨k, rfl⟩ := Int.eq_ofNat_of_zero_le hother.le
    refine .inr ⟨n, k, by omega, ?_, fun hn => ?_⟩
    · push_cast
      linear_combination -hdistance
    · rw [hn, Int.natCast_zero, Int.neg_zero, Int.zero_mul, Int.zero_add] at hm' hd
      exact ⟨by exact_mod_cast hm', by exact_mod_cast hd⟩
  · have hother : v ≤ 0 := by
      by_contra hv
      have hge := le_mul_of_one_le_left hp hside
      have hge' := le_mul_of_one_le_left hp' (not_le.1 hv)
      omega
    obtain ⟨n, rfl⟩ := Int.exists_eq_neg_ofNat hother
    obtain ⟨k, rfl⟩ := Int.eq_ofNat_of_zero_le hside.le
    refine .inl ⟨k, n, by omega, ?_⟩
    push_cast
    linear_combination hdistance

theorem mul_eq_zero_or_lt {x : ℕ} (n : ℕ) (h : x = 0 ∨ gap < x) : n * x = 0 ∨ gap < n * x := by
  rcases Nat.eq_zero_or_pos n with rfl | hn
  · exact .inl (Nat.zero_mul x)
  · refine h.imp (fun hzero => by rw [hzero, Nat.mul_zero]) fun hgap => hgap.trans_le ?_
    exact Nat.le_mul_of_pos_left x hn

/-- Fractions with smaller numerators are as far from the ratio. -/
theorem apart (h : b.Encloses num den) (apart : b.IsApart num den gap) (hpos : 0 < m)
    (hm : m < b.p + b.p') :
    (d : ℤ) * num = m * den ∨ (gap : ℤ) < |(d : ℤ) * num - m * den| := by
  have hsum : ∀ u v : ℕ, u * b.below num den + v * b.above num den = 0 ∨
      gap < u * b.below num den + v * b.above num den := by
    intro u v
    have hbelow := mul_eq_zero_or_lt u apart.1
    have habove := mul_eq_zero_or_lt v apart.2
    omega
  rcases h.distance (d := d) hpos hm with ⟨u, v, -, hdistance⟩ | ⟨u, v, -, hdistance, -⟩
  · rw [hdistance, Nat.abs_cast]
    have hside := hsum u v
    omega
  · rw [abs_sub_comm, hdistance, Nat.abs_cast]
    have hside := hsum u v
    omega

/-- A fraction that is nearer to the ratio than the lower one of a bracket has the terms of the
    upper one, or multiples of them. -/
theorem multiple_of_near (h : b.Encloses num den) (hbelow : gap < b.below num den) (hpos : 0 < m)
    (hm : m < b.p + b.p') (hnear : |(d : ℤ) * num - m * den| ≤ gap) :
    ∃ v, m = v * b.p' ∧ d = v * b.q' := by
  have hfar : ∀ u v : ℕ, 0 < u → gap < u * b.below num den + v * b.above num den := by
    intro u v hu
    have hle := Nat.le_mul_of_pos_left (b.below num den) hu
    omega
  rcases h.distance (d := d) hpos hm with ⟨u, v, hu, hdistance⟩ | ⟨u, v, -, hdistance, hmultiple⟩
  · have hgap := hfar u v hu
    rw [hdistance, Nat.abs_cast] at hnear
    omega
  · rcases Nat.eq_zero_or_pos u with hu | hu
    · exact ⟨v, hmultiple hu⟩
    · have hgap := hfar u v hu
      rw [abs_sub_comm, hdistance, Nat.abs_cast] at hnear
      omega

end Encloses

end Bracket

end Protobuf
