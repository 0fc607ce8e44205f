import Protobuf.Proofs.Number.Wholes
import Protobuf.Proofs.Steps

/-! # Integers in JSON texts

A text of digits alone is read as the integer it spells.  Any other numeral is read by way of
double precision, as the whole number that it is rounded to: a fraction may be rounded away, and
of the whole numbers beyond `2^53` not all are double-precision numbers.

* `Numeral.ReadAs`: the integer that a numeral is taken for.
* `Numeral.Faithful`: the numerals that are taken for nothing but what they are worth.
* `Numeral.integers_of_text`: the four decoders of integers, on every numeral.
-/

namespace Protobuf

/-- A whole number is read if it is within the bounds. -/
theorem JsonForm.integer_eq_ok_iff {low high k : ℤ} {v : Json} :
    integer low high v = .ok k ↔ wide v = .ok k ∧ low ≤ k ∧ k ≤ high := by
  unfold integer
  cases wide v with
  | error e => simp
  | ok n =>
    simp only [Except.ok.injEq]
    split
    · rename_i hrange
      rw [Except.ok.injEq]
      exact ⟨fun h => ⟨h, h ▸ hrange⟩, fun h => h.1⟩
    · rename_i hrange
      refine iff_of_false nofun ?_
      rintro ⟨rfl, hrange'⟩
      exact hrange hrange'

namespace Numeral

variable {s : Numeral} {low high : ℤ}

/-! ## What a numeral is taken for -/

/-- The integer that a numeral is taken for: its own value if there is neither a point nor an
    exponent, else what it is rounded to. -/
def ReadAs (s : Numeral) (k : ℤ) : Prop :=
  s.IsPlain ∧ s.value = k ∨ ¬s.IsPlain ∧ FloatFormat.double.Rounds s.value k

/-- No integer between `low` and `high` is what the numeral is rounded to, unless it is what the
    numeral is worth, or the numeral is not rounded. -/
def Faithful (low high : ℤ) (s : Numeral) : Prop :=
  s.IsPlain ∨ ∀ k : ℤ, low ≤ k → k ≤ high → FloatFormat.double.Rounds s.value k → k = s.value

/-- A numeral is taken for at most one integer. -/
theorem ReadAs.unique {k l : ℤ} (hk : s.ReadAs k) (hl : s.ReadAs l) : k = l := by
  rcases hk with ⟨hplain, hk⟩ | ⟨hround, hk⟩
  · have hl := (hl.resolve_right fun h => h.1 hplain).2
    exact Int.cast_inj.1 (hk.symm.trans hl)
  · have hl := (hl.resolve_left fun h => hround h.1).2
    obtain ⟨n, e, hnearest, hread⟩ := s.denote_toBinary64
    exact Int.cast_inj.1 (((s.rounds_iff hnearest).1 hk).trans ((s.rounds_iff hnearest).1 hl).symm)

/-- A numeral that is taken for what it is worth whenever it is taken for anything is faithful. -/
theorem faithful_iff :
    s.Faithful low high ↔ ∀ k : ℤ, low ≤ k → k ≤ high → s.ReadAs k → k = s.value := by
  constructor
  · rintro (hplain | hrounds) k hlow hhigh (⟨-, hk⟩ | ⟨hround, hk⟩)
    · exact hk.symm
    · exact absurd hplain hround
    · exact hk.symm
    · exact hrounds k hlow hhigh hk
  · intro hread
    by_cases hplain : s.IsPlain
    · exact .inl hplain
    · exact .inr fun k hlow hhigh hk => hread k hlow hhigh (.inr ⟨hplain, hk⟩)

/-- Whole numbers up to `2^53` are taken for themselves, however they are spelled. -/
theorem readAs_of_whole {k : ℤ} (hvalue : s.value = k) (hk : |k| ≤ 2 ^ 53) : s.ReadAs k := by
  by_cases hplain : s.IsPlain
  · exact .inl ⟨hplain, hvalue⟩
  · obtain ⟨n, e, hnearest, -⟩ := s.denote_toBinary64
    have hrounds := (s.rounds_iff hnearest).2 rfl
    have hexact := hrounds
    rw [hvalue] at hexact
    rw [hexact.eq_of_whole hk] at hrounds
    exact .inr ⟨hplain, hrounds⟩

/-! ## The decoders -/

/-- A numeral of digits alone has a whole value. -/
theorem IsPlain.exists_value (h : s.IsPlain) : ∃ k : ℤ, s.value = k := by
  rw [h.eq_ofDigits]
  exact ⟨_, value_ofDigits ..⟩

/-- What is large is not rounded to anything less than half of it. -/
theorem not_rounds_of_large {k l : ℤ} (hk : |k| ≤ 2 ^ 125) (hl : 2 ^ 126 < |l|) :
    ¬FloatFormat.double.Rounds l k := by
  intro hrounds
  have hk' : |(k : ℚ)| ≤ 2 ^ 125 := by exact_mod_cast hk
  have hl' : (2 : ℚ) ^ 126 < |(l : ℚ)| := by exact_mod_cast hl
  have hone : (1 : ℚ) ≤ 2 ^ 126 := by norm_num
  have hdouble := hrounds.abs_le_two_mul (hone.trans hl'.le)
  linarith

/-- What is no integer of 128 bits as it stands is rounded. -/
theorem wide_text_of_none {k : ℤ} (hk : |k| ≤ 2 ^ 125)
    (hnone : ∀ n, Literal.integerWithin? (-JsonForm.maxWide - 1) JsonForm.maxWide s.text ≠ some n) :
    JsonForm.wide (.string s.text) = .ok k ↔ FloatFormat.double.Rounds s.value k := by
  rw [← s.whole?_toBinary64_iff (hk.trans (by norm_num)), JsonForm.wide,
    Option.eq_none_iff_forall_ne_some.2 hnone, s.float?_text, Option.bind_some]
  cases JsonForm.whole? s.decimal.toBinary64 <;> simp

/-- Numbers far within the range of 128 bits are read from the numerals that are taken for them. -/
theorem wide_text (s : Numeral) {k : ℤ} (hk : |k| ≤ 2 ^ 125) :
    JsonForm.wide (.string s.text) = .ok k ↔ s.ReadAs k := by
  have hmax : JsonForm.maxWide = 2 ^ 127 - 1 := rfl
  have hplainRead : ∀ n, Literal.integerWithin? (-JsonForm.maxWide - 1) JsonForm.maxWide s.text = some n ↔
      s.IsPlain ∧ s.value = n ∧ -JsonForm.maxWide - 1 ≤ n ∧ n ≤ JsonForm.maxWide :=
    fun n => s.integerWithin?_text (by omega)
  by_cases hplain : s.IsPlain
  · obtain ⟨l, hl⟩ := hplain.exists_value
    have hreadAs : s.ReadAs k ↔ l = k := by
      simp only [ReadAs, hplain, not_true_eq_false, false_and, or_false, true_and, hl, Int.cast_inj]
    rw [hreadAs]
    by_cases hrange : -JsonForm.maxWide - 1 ≤ l ∧ l ≤ JsonForm.maxWide
    · rw [JsonForm.wide, (hplainRead l).2 ⟨hplain, hl, hrange⟩]
      simp
    · -- Beyond 128 bits a plain numeral is rounded as well, but not to anything far within them.
      obtain ⟨hlow, hhigh⟩ := abs_le.1 hk
      rw [wide_text_of_none hk, hl]
      · refine iff_of_false (not_rounds_of_large hk ?_) ?_
        · rw [lt_abs]
          omega
        · rintro rfl
          exact hrange ⟨by omega, by omega⟩
      · intro n hn
        obtain ⟨-, hvalue, hrange'⟩ := (hplainRead n).1 hn
        obtain rfl : l = n := Int.cast_inj.1 (hl.symm.trans hvalue)
        exact hrange hrange'
  · rw [wide_text_of_none hk fun n hn => hplain ((hplainRead n).1 hn).1]
    simp only [ReadAs, hplain, false_and, not_false_eq_true, true_and, false_or]

/-- A decoder of integers takes the numerals that are taken for a number in its range. -/
theorem integer_text (s : Numeral) (hlow : -2 ^ 125 ≤ low) (hhigh : high ≤ 2 ^ 125) (k : ℤ) :
    JsonForm.integer low high (.string s.text) = .ok k ↔ low ≤ k ∧ k ≤ high ∧ s.ReadAs k := by
  rw [JsonForm.integer_eq_ok_iff]
  constructor
  · rintro ⟨hwide, hk⟩
    exact ⟨hk.1, hk.2, (s.wide_text (abs_le.2 ⟨by omega, by omega⟩)).1 hwide⟩
  · rintro ⟨hk, hk', hread⟩
    exact ⟨(s.wide_text (abs_le.2 ⟨by omega, by omega⟩)).2 hread, hk, hk'⟩

structure Reads {α : Type} (read : Json → Except DecodeError α) (toInt : α → ℤ) (low high : ℤ)
    (s : Numeral) : Prop where
  /-- Its value is the integer that the numeral is taken for. -/
  ok_iff : ∀ a, read (.string s.text) = .ok a ↔ s.ReadAs (toInt a)
  /-- It gives nothing but what the numeral is worth exactly if the numeral is faithful. -/
  exact_iff : (∀ a, read (.string s.text) = .ok a → toInt a = s.value) ↔ s.Faithful low high

theorem reads_map_integer {α : Type} {ofInt : ℤ → α} {toInt : α → ℤ} (s : Numeral)
    (hlow : -2 ^ 125 ≤ low) (hhigh : high ≤ 2 ^ 125)
    (hrange : ∀ a, low ≤ toInt a ∧ toInt a ≤ high) (hof : ∀ a, ofInt (toInt a) = a)
    (hto : ∀ k, low ≤ k → k ≤ high → toInt (ofInt k) = k) :
    s.Reads (fun v => (JsonForm.integer low high v).map ofInt) toInt low high := by
  have hread : ∀ a, (JsonForm.integer low high (.string s.text)).map ofInt = .ok a ↔
      s.ReadAs (toInt a) := by
    intro a
    constructor
    · intro hread
      obtain ⟨k, hk, rfl⟩ := map_eq_ok.1 hread
      obtain ⟨hlow', hhigh', hreadAs⟩ := (s.integer_text hlow hhigh k).1 hk
      rw [hto k hlow' hhigh']
      exact hreadAs
    · intro hreadAs
      have hk := (s.integer_text hlow hhigh (toInt a)).2 ⟨(hrange a).1, (hrange a).2, hreadAs⟩
      rw [hk, Except.map, hof]
  refine ⟨hread, ?_⟩
  rw [faithful_iff]
  constructor
  · -- Every integer of the range is that of a value, so it is enough to speak of values.
    intro hexact k hlow' hhigh' hreadAs
    have hk := hto k hlow' hhigh'
    rw [← hk] at hreadAs ⊢
    exact hexact _ ((hread _).2 hreadAs)
  · intro hfaithful a ha
    exact hfaithful _ (hrange a).1 (hrange a).2 ((hread a).1 ha)

theorem reads_int32 (s : Numeral) :
    s.Reads Scalar.int32OfJson Int32.toInt (-2 ^ 31) (2 ^ 31 - 1) := by
  refine s.reads_map_integer (by omega) (by omega) ?_ Int32.ofInt_toInt ?_
  · intro n
    have hlow := n.le_toInt
    have hhigh := n.toInt_lt
    omega
  · intro k hlow hhigh
    exact Int32.toInt_ofInt_of_le hlow (by omega)

theorem reads_int64 (s : Numeral) :
    s.Reads Scalar.int64OfJson Int64.toInt (-2 ^ 63) (2 ^ 63 - 1) := by
  refine s.reads_map_integer (by omega) (by omega) ?_ Int64.ofInt_toInt ?_
  · intro n
    have hlow := n.le_toInt
    have hhigh := n.toInt_lt
    omega
  · intro k hlow hhigh
    exact Int64.toInt_ofInt_of_le hlow (by omega)

theorem reads_uint32 (s : Numeral) :
    s.Reads Scalar.uint32OfJson (fun n => n.toNat) 0 (2 ^ 32 - 1) := by
  refine s.reads_map_integer (by omega) (by omega) ?_ ?_ ?_
  · intro n
    have hhigh := n.toNat_lt
    omega
  · intro n
    rw [Int.toNat_natCast, UInt32.ofNat_toNat]
  · intro k hlow hhigh
    have hlt : k.toNat < 2 ^ 32 := by omega
    rw [UInt32.toNat_ofNat_of_lt' hlt, Int.toNat_of_nonneg hlow]

theorem reads_uint64 (s : Numeral) :
    s.Reads Scalar.uint64OfJson (fun n => n.toNat) 0 (2 ^ 64 - 1) := by
  refine s.reads_map_integer (by omega) (by omega) ?_ ?_ ?_
  · intro n
    have hhigh := n.toNat_lt
    omega
  · intro n
    rw [Int.toNat_natCast, UInt64.ofNat_toNat]
  · intro k hlow hhigh
    have hlt : k.toNat < 2 ^ 64 := by omega
    rw [UInt64.toNat_ofNat_of_lt' hlt, Int.toNat_of_nonneg hlow]

/-- The decoders of integers alter a numeral only if it has a point or an exponent and is rounded
    to another integer of their range.  Whole numbers up to `2^53` are never altered. -/
theorem integers_of_text (s : Numeral) :
    s.Reads Scalar.int32OfJson Int32.toInt (-2 ^ 31) (2 ^ 31 - 1) ∧
      s.Reads Scalar.int64OfJson Int64.toInt (-2 ^ 63) (2 ^ 63 - 1) ∧
      s.Reads Scalar.uint32OfJson (fun n => n.toNat) 0 (2 ^ 32 - 1) ∧
      s.Reads Scalar.uint64OfJson (fun n => n.toNat) 0 (2 ^ 64 - 1) ∧
      ∀ k : ℤ, s.value = k → |k| ≤ 2 ^ 53 → ∀ l, s.ReadAs l ↔ l = k := by
  refine ⟨s.reads_int32, s.reads_int64, s.reads_uint32, s.reads_uint64, ?_⟩
  intro k hvalue hk l
  have hread := readAs_of_whole hvalue hk
  constructor
  · intro hl
    exact hl.unique hread
  · rintro rfl
    exact hread

/-! ## Numerals that are altered -/

def nearlyOne : Numeral :=
  ⟨.none, .ofString "0" (by decide +kernel),
    some (.ofString "99999999999999999999" (by decide +kernel)), none⟩

/-- The least positive whole number that is no double-precision number, with a point. -/
def oddWhole : Numeral :=
  ⟨.none, .ofString "9007199254740993" (by decide +kernel), some (.ofString "0" (by decide +kernel)),
    none⟩

theorem value_nearlyOne : nearlyOne.value < 1 := by
  have hnines : Nat.ofDigitChars 10 "99999999999999999999".toList 0 = 10 ^ 20 - 1 := by decide +kernel
  have hlength : "99999999999999999999".toList.length = 20 := by decide +kernel
  have hzero : Nat.ofDigitChars 10 "0".toList 0 = 0 := by decide +kernel
  simp only [nearlyOne, value, magnitude, DigitRun.value, DigitRun.ofString, fractionDigits,
    exponentValue, NumeralSign.isMinus, Option.map_some, Option.map_none, Option.getD_some,
    Option.getD_none, hnines, hlength, hzero]
  norm_num

theorem value_oddWhole : oddWhole.value = 9007199254740993 := by
  have hdigits : Nat.ofDigitChars 10 "9007199254740993".toList 0 = 9007199254740993 := by
    decide +kernel
  have hzero : Nat.ofDigitChars 10 "0".toList 0 = 0 := by decide +kernel
  simp only [oddWhole, value, magnitude, DigitRun.value, DigitRun.ofString, fractionDigits,
    exponentValue, NumeralSign.isMinus, Option.map_some, Option.map_none, Option.getD_some,
    Option.getD_none, hdigits, hzero]
  norm_num

/-- A fraction is rounded away, and a whole number is taken for its neighbour. -/
theorem integers_altered :
    (nearlyOne.text = "0.99999999999999999999" ∧ nearlyOne.value < 1 ∧
      Scalar.int32OfJson (.string nearlyOne.text) = .ok 1) ∧
    (oddWhole.text = "9007199254740993.0" ∧ oddWhole.value = 9007199254740993 ∧
      Scalar.int64OfJson (.string oddWhole.text) = .ok 9007199254740992) := by
  constructor
  · exact ⟨by decide +kernel, value_nearlyOne, by decide +kernel⟩
  · exact ⟨by decide +kernel, value_oddWhole, by decide +kernel⟩

end Numeral

end Protobuf
