import Protobuf.Proofs.Number.Digits

/-! # Fractions of a second are read back

* `Fraction.text_spec`: the text of nanoseconds, and what is read from it.
* `Fraction.nanos_lt`: what is read is less than a second.
* `Fraction.exists_two_digits`, `Fraction.exists_four_digits`: numbers of a fixed width.
-/

namespace Protobuf.Fraction

/-- A point and digits that stand for a number of nanoseconds. -/
structure Spells (cs : List Char) (n : Nat) (ds : List Char) : Prop where
  point : cs = '.' :: ds
  ne_nil : ds ≠ []
  digits : ∀ c ∈ ds, c.isDigit
  length_le : ds.length ≤ 9
  nanos : Fraction.nanos ds = n

theorem Spells.fits {cs ds : List Char} {n : Nat} (h : Spells cs n ds) : ¬(ds = [] ∨ 9 < ds.length) := by
  rintro (hempty | hlong)
  · exact h.ne_nil hempty
  · exact absurd h.length_le (Nat.not_le.2 hlong)

theorem spells_padded {width n : Nat} (hwidth : 0 < width) (hle : width ≤ 9)
    (h : n < 10 ^ width) :
    Spells ('.' :: padded width n) (n * Nat.pow 10 (9 - width)) (padded width n) where
  point := rfl
  ne_nil := padded_ne_nil width n
  digits _ hc := isDigit_of_mem_padded hc
  length_le := by rw [length_padded hwidth h]; exact hle
  nanos := by rw [Fraction.nanos, natOfDigits_padded, length_padded hwidth h]

/-- Nanoseconds are written as nothing if there are none, and else as digits that stand for
    them. -/
theorem text_spec {n : Nat} (h : n < 1000000000) :
    (n = 0 ∧ text n = []) ∨ ∃ ds, Spells (text n) n ds := by
  unfold text
  by_cases hzero : n = 0
  · exact .inl ⟨hzero, if_pos hzero⟩
  · rw [if_neg hzero]
    -- As few groups of three digits as are exact: one, two or three.
    by_cases hmillis : n % 1000000 = 0
    · rw [if_pos hmillis]
      have hspells := spells_padded (show 0 < 3 by decide) (by decide)
        (show n / 1000000 < 10 ^ 3 by omega)
      have hvalue : n / 1000000 * Nat.pow 10 (9 - 3) = n :=
        Nat.div_mul_cancel (Nat.dvd_of_mod_eq_zero hmillis)
      exact .inr ⟨_, hvalue ▸ hspells⟩
    · rw [if_neg hmillis]
      by_cases hmicros : n % 1000 = 0
      · rw [if_pos hmicros]
        have hspells := spells_padded (show 0 < 6 by decide) (by decide)
          (show n / 1000 < 10 ^ 6 by omega)
        have hvalue : n / 1000 * Nat.pow 10 (9 - 6) = n :=
          Nat.div_mul_cancel (Nat.dvd_of_mod_eq_zero hmicros)
        exact .inr ⟨_, hvalue ▸ hspells⟩
      · rw [if_neg hmicros]
        have hspells := spells_padded (show 0 < 9 by decide) (by decide) (show n < 10 ^ 9 by omega)
        have hvalue : n * Nat.pow 10 (9 - 9) = n := Nat.mul_one n
        exact .inr ⟨_, hvalue ▸ hspells⟩

/-- No more than nine digits are less than a second. -/
theorem nanos_lt {ds : List Char} (hdigits : ∀ c ∈ ds, c.isDigit) (hlength : ds.length ≤ 9) :
    nanos ds < 1000000000 := by
  have hpos : 0 < Nat.pow 10 (9 - ds.length) := Nat.pow_pos (by decide)
  calc
    nanos ds < 10 ^ ds.length * Nat.pow 10 (9 - ds.length) :=
      Nat.mul_lt_mul_of_pos_right (Literal.natOfDigits_lt hdigits) hpos
    _ = 10 ^ (ds.length + (9 - ds.length)) := (Nat.pow_add ..).symm
    _ = 10 ^ 9 := by rw [Nat.add_sub_cancel' hlength]

theorem exists_two_digits {n : Nat} (h : n < 100) :
    ∃ a b, padded 2 n = [a, b] ∧ Literal.digits? [a, b] = some n := by
  have hlength := length_padded (show 0 < 2 by decide) (show n < 10 ^ 2 by omega)
  have hdigits := digits?_padded 2 n
  match hds : padded 2 n, hlength with
  | [a, b], _ => exact ⟨a, b, rfl, hds ▸ hdigits⟩

theorem exists_four_digits {n : Nat} (h : n < 10000) :
    ∃ a b c d, padded 4 n = [a, b, c, d] ∧ Literal.digits? [a, b, c, d] = some n := by
  have hlength := length_padded (show 0 < 4 by decide) (show n < 10 ^ 4 by omega)
  have hdigits := digits?_padded 4 n
  match hds : padded 4 n, hlength with
  | [a, b, c, d], _ => exact ⟨a, b, c, d, rfl, hds ▸ hdigits⟩

end Protobuf.Fraction
