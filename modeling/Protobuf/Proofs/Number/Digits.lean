import Mathlib.Algebra.Group.Int.Defs
import Mathlib.Algebra.Group.Nat.Defs
import Protobuf.Time.Fraction

/-! # Decimal digits are read back

Numbers written in digits, with or without zeros in front, are read back, and so is
what is in front of a run of digits or behind it.

* `natOfDigits_digits`, `digits?_digits`: the digits of a number.
* `natOfDigits_lt`: so many digits spell no number beyond them.
* `integerWithin?_toString`: a signed number within bounds.
* `Fraction.natOfDigits_padded`, `Fraction.length_padded`: digits with zeros in front.
* `takeWhile_digits`, `dropWhile_digits`: a run of digits in front of other characters.
-/

namespace Protobuf

namespace Literal

theorem natOfDigits_eq (ds : List Char) : natOfDigits ds = Nat.ofDigitChars 10 ds 0 := rfl

theorem natOfDigits_digits (n : Nat) : natOfDigits (Decimal.digits n) = n :=
  Nat.ofDigitChars_ten_toDigits

theorem digitValue_lt {c : Char} (hc : c.isDigit) : digitValue c < 10 := by
  have hle : c.toNat ≤ 57 := (Char.isDigit_iff_toNat.1 hc).2
  have hzero : '0'.toNat = 48 := rfl
  rw [digitValue, hzero]
  omega

/-- What digits spell behind a number is below the next one, moved up as far. -/
theorem foldl_digits_lt {ds : List Char} (hdigits : ∀ c ∈ ds, c.isDigit) (n : Nat) :
    ds.foldl (fun n c => 10 * n + digitValue c) n < (n + 1) * 10 ^ ds.length := by
  induction ds generalizing n with
  | nil => simp
  | cons c ds ih =>
    have hc := digitValue_lt (hdigits c List.mem_cons_self)
    have hrest := ih (fun d hd => hdigits d (List.mem_cons_of_mem _ hd)) (10 * n + digitValue c)
    rw [List.foldl_cons, List.length_cons, Nat.pow_succ']
    calc
      _ < (10 * n + digitValue c + 1) * 10 ^ ds.length := hrest
      _ ≤ (n + 1) * 10 * 10 ^ ds.length := Nat.mul_le_mul_right _ (by omega)
      _ = _ := Nat.mul_assoc ..

theorem natOfDigits_lt {ds : List Char} (hdigits : ∀ c ∈ ds, c.isDigit) :
    natOfDigits ds < 10 ^ ds.length := by
  have hlt := foldl_digits_lt hdigits 0
  rwa [Nat.zero_add, Nat.one_mul] at hlt

theorem isDigit_of_mem_digits {n : Nat} {c : Char} (hc : c ∈ Decimal.digits n) : c.isDigit :=
  Nat.isDigit_of_mem_toDigits (by decide) (by decide) hc

theorem digits_ne_nil (n : Nat) : Decimal.digits n ≠ [] := Nat.toDigits_ne_nil

/-- A run of digits is the number that they spell. -/
theorem digits?_of_all {ds : List Char} (hne : ds ≠ []) (hdigits : ∀ c ∈ ds, c.isDigit) :
    digits? ds = some (natOfDigits ds) := by
  unfold digits?
  rw [if_pos ⟨hne, List.all_eq_true.2 hdigits⟩]

theorem digits?_digits (n : Nat) : digits? (Decimal.digits n) = some n := by
  rw [digits?_of_all (digits_ne_nil n) fun c hc => isDigit_of_mem_digits hc, natOfDigits_digits]

theorem splitSign_of_all {ds : List Char} (hdigits : ∀ c ∈ ds, c.isDigit) :
    splitSign ds = (false, ds) := by
  unfold splitSign
  split
  · exact absurd (hdigits '-' (by simp)) (by decide)
  · exact absurd (hdigits '+' (by simp)) (by decide)
  · rfl

theorem toList_toString_negSucc (n : Nat) :
    (toString (Int.negSucc n)).toList = '-' :: Decimal.digits (n + 1) := by
  show ("-" ++ (n + 1).repr).toList = _
  rw [String.toList_append, Nat.toList_repr]
  rfl

theorem signed_true_succ (n : Nat) : signed true (n + 1) = Int.negSucc n := by
  simp only [signed, if_true]
  omega

/-- An integer within bounds is read from its own text. -/
theorem integerWithin?_toString {low high n : Int} (hlow : low ≤ n) (hhigh : n ≤ high) :
    integerWithin? low high (toString n) = some n := by
  cases n with
  | ofNat n =>
    have htext : (toString (Int.ofNat n)).toList = Decimal.digits n := Nat.toList_repr
    unfold integerWithin?
    rw [htext, splitSign_of_all fun c hc => isDigit_of_mem_digits hc]
    simp only [Bool.false_eq_true, false_and, if_false, digits?_digits, signed]
    exact if_pos ⟨hlow, hhigh⟩
  | negSucc n =>
    unfold integerWithin?
    rw [toList_toString_negSucc, splitSign]
    -- A minus sign is refused only where no negative number is within bounds.
    have hneg : ¬0 ≤ low := by omega
    simp only [hneg, and_false, if_false, digits?_digits, signed_true_succ]
    exact if_pos ⟨hlow, hhigh⟩

variable {ds rest : List Char}

/-- Digits in front of anything else are taken off whole. -/
theorem takeWhile_digits (hdigits : ∀ c ∈ ds, c.isDigit) {c : Char} (hc : c.isDigit = false) :
    (ds ++ c :: rest).takeWhile Char.isDigit = ds := by
  rw [List.takeWhile_append_of_pos hdigits, List.takeWhile_cons_of_neg (by simp [hc]),
    List.append_nil]

/-- What stands behind digits is left. -/
theorem dropWhile_digits (hdigits : ∀ c ∈ ds, c.isDigit) {c : Char} (hc : c.isDigit = false) :
    (ds ++ c :: rest).dropWhile Char.isDigit = c :: rest := by
  rw [List.dropWhile_append_of_pos hdigits, List.dropWhile_cons_of_neg (by simp [hc])]

end Literal

/-! ## Zeros in front -/

namespace Fraction

theorem natOfDigits_padded (width n : Nat) : Literal.natOfDigits (padded width n) = n := by
  unfold padded
  rw [Literal.natOfDigits_eq, Nat.ofDigitChars_append, Nat.ofDigitChars_replicate_zero, Nat.mul_zero,
    ← Literal.natOfDigits_eq, Literal.natOfDigits_digits]

theorem isDigit_of_mem_padded {width n : Nat} {c : Char} (hc : c ∈ padded width n) : c.isDigit := by
  rcases List.mem_append.1 hc with hc | hc
  · rw [(List.mem_replicate.1 hc).2]
    decide
  · exact Literal.isDigit_of_mem_digits hc

theorem length_padded {width n : Nat} (hwidth : 0 < width) (h : n < 10 ^ width) :
    (padded width n).length = width := by
  have hle : (Decimal.digits n).length ≤ width :=
    (Nat.length_toDigits_le_iff (by decide) hwidth).2 h
  unfold padded
  rw [List.length_append, List.length_replicate]
  omega

theorem padded_ne_nil (width n : Nat) : padded width n ≠ [] := by
  unfold padded
  simp [Literal.digits_ne_nil]

theorem digits?_padded (width n : Nat) : Literal.digits? (padded width n) = some n := by
  rw [Literal.digits?_of_all (padded_ne_nil width n) fun c hc => isDigit_of_mem_padded hc,
    natOfDigits_padded]

end Fraction

end Protobuf
