import Mathlib.Tactic.FieldSimp
import Mathlib.Tactic.Ring
import Protobuf.Proofs.Number.Decimal
import Protobuf.Proofs.Number.Digits

/-! # Numerals

Decimal numbers as texts spell them: a sign, digits, digits behind a point and an exponent.
What a numeral is worth is said here without a reader, and the readers of numbers in text are
told by the numerals that they take.

* `Numeral`: a spelled number, `Numeral.value`: what it is worth.
* `Literal.integerWithin?_eq_some_iff`: the numerals that are read as whole numbers.
* `Numeral.float?_text`: the decimal that a numeral is read as before it is rounded.
-/

namespace Protobuf

structure DigitRun where
  chars : List Char
  ne_nil : chars ≠ []
  digits : ∀ c ∈ chars, c.isDigit

def DigitRun.ofString (text : String) (h : text.toList ≠ [] ∧ text.toList.all Char.isDigit) :
    DigitRun :=
  ⟨text.toList, h.1, List.all_eq_true.1 h.2⟩

def DigitRun.value (ds : DigitRun) : ℕ := Nat.ofDigitChars 10 ds.chars 0

inductive NumeralSign
  | none
  | plus
  | minus
deriving DecidableEq

namespace NumeralSign

def chars : NumeralSign → List Char
  | none => []
  | plus => ['+']
  | minus => ['-']

def isMinus : NumeralSign → Bool
  | minus => true
  | _ => false

def apply (sign : NumeralSign) (n : ℕ) : ℤ :=
  match sign with
  | minus => -n
  | _ => n

end NumeralSign

/-- A decimal number in text: `[+-]?[0-9]+(\.[0-9]+)?(e[+-]?[0-9]+)?`. -/
structure Numeral where
  sign : NumeralSign
  whole : DigitRun
  fraction : Option DigitRun
  exponent : Option (NumeralSign × DigitRun)

namespace Numeral

def fractionDigits (s : Numeral) : List Char := (s.fraction.map DigitRun.chars).getD []

def exponentValue (s : Numeral) : ℤ := (s.exponent.map fun e => e.1.apply e.2.value).getD 0

def fractionPart (s : Numeral) : List Char :=
  match s.fraction with
  | none => []
  | some ds => '.' :: ds.chars

def exponentPart (s : Numeral) : List Char :=
  match s.exponent with
  | none => []
  | some (sign, ds) => 'e' :: (sign.chars ++ ds.chars)

def unsigned (s : Numeral) : List Char := s.whole.chars ++ (s.fractionPart ++ s.exponentPart)

def text (s : Numeral) : String := String.ofList (s.sign.chars ++ s.unsigned)

/-- What a numeral is worth without its sign. -/
def magnitude (s : Numeral) : ℚ :=
  (s.whole.value + Nat.ofDigitChars 10 s.fractionDigits 0 / 10 ^ s.fractionDigits.length) *
    10 ^ s.exponentValue

def value (s : Numeral) : ℚ := if s.sign.isMinus then -s.magnitude else s.magnitude

def IsPlain (s : Numeral) : Prop := s.fraction = none ∧ s.exponent = none

end Numeral

/-! ## Signs and digits -/

namespace DigitRun

def ofNat (n : ℕ) : DigitRun :=
  ⟨Decimal.digits n, Literal.digits_ne_nil n, fun _ hc => Literal.isDigit_of_mem_digits hc⟩

theorem value_ofNat (n : ℕ) : (ofNat n).value = n := Literal.natOfDigits_digits n

/-- Digits do not start with a sign or a point. -/
theorem exists_cons (ds : DigitRun) : ∃ c cs, ds.chars = c :: cs ∧ c.isDigit := by
  obtain ⟨c, cs, hcs⟩ := List.exists_cons_of_ne_nil ds.ne_nil
  refine ⟨c, cs, hcs, ds.digits c ?_⟩
  rw [hcs]
  exact List.mem_cons_self

/-- Digits are taken off whole if no digit follows. -/
theorem takeWhile_append (ds : DigitRun) {rest : List Char} (hrest : ∀ c ∈ rest.head?, c.isDigit = false) :
    (ds.chars ++ rest).takeWhile Char.isDigit = ds.chars := by
  rw [List.takeWhile_append_of_pos ds.digits]
  cases rest with
  | nil => rw [List.takeWhile_nil, List.append_nil]
  | cons c rest => rw [List.takeWhile_cons_of_neg (by simp [hrest c rfl]), List.append_nil]

theorem dropWhile_append (ds : DigitRun) {rest : List Char} (hrest : ∀ c ∈ rest.head?, c.isDigit = false) :
    (ds.chars ++ rest).dropWhile Char.isDigit = rest := by
  rw [List.dropWhile_append_of_pos ds.digits]
  cases rest with
  | nil => rfl
  | cons c rest => rw [List.dropWhile_cons_of_neg (by simp [hrest c rfl])]

end DigitRun

namespace Literal

/-- The digits in front of a text, if there are any. -/
theorem exists_digitRun {cs : List Char} (hne : cs.takeWhile Char.isDigit ≠ []) :
    ∃ ds : DigitRun, cs = ds.chars ++ cs.dropWhile Char.isDigit ∧ ds.chars = cs.takeWhile Char.isDigit :=
  ⟨⟨cs.takeWhile Char.isDigit, hne, List.all_eq_true.1 List.all_takeWhile⟩,
    List.takeWhile_append_dropWhile.symm, rfl⟩

theorem digits?_eq_some_iff {cs : List Char} {n : ℕ} :
    digits? cs = some n ↔ ∃ ds : DigitRun, ds.chars = cs ∧ ds.value = n := by
  unfold digits?
  constructor
  · intro hread
    split at hread
    · rename_i hdigits
      cases hread
      exact ⟨⟨cs, hdigits.1, List.all_eq_true.1 hdigits.2⟩, rfl, rfl⟩
    · cases hread
  · rintro ⟨ds, rfl, rfl⟩
    rw [if_pos ⟨ds.ne_nil, List.all_eq_true.2 ds.digits⟩]
    rfl

theorem signed_isMinus (sign : NumeralSign) (n : ℕ) : signed sign.isMinus n = sign.apply n := by
  cases sign <;> rfl

/-- A sign is split off digits. -/
theorem splitSign_append (sign : NumeralSign) (ds : DigitRun) (rest : List Char) :
    splitSign (sign.chars ++ (ds.chars ++ rest)) = (sign.isMinus, ds.chars ++ rest) := by
  cases sign with
  | plus | minus => rfl
  | none =>
    obtain ⟨c, cs, hcs, hc⟩ := ds.exists_cons
    simp only [NumeralSign.chars, List.nil_append, hcs, List.cons_append, splitSign]
    -- A digit is none of the two signs.
    split
    · rename_i hminus
      cases hminus
      cases hc
    · rename_i hplus
      cases hplus
      cases hc
    · rfl

/-- What is split off is a sign or nothing. -/
theorem exists_sign (cs : List Char) :
    ∃ sign : NumeralSign, (splitSign cs).1 = sign.isMinus ∧ cs = sign.chars ++ (splitSign cs).2 := by
  unfold splitSign
  split
  · exact ⟨.minus, rfl, rfl⟩
  · exact ⟨.plus, rfl, rfl⟩
  · exact ⟨.none, rfl, rfl⟩

end Literal

/-! ## Whole numbers -/

namespace Numeral

variable {s : Numeral}

def ofDigits (sign : NumeralSign) (ds : DigitRun) : Numeral := ⟨sign, ds, none, none⟩

theorem IsPlain.eq_ofDigits (h : s.IsPlain) : s = ofDigits s.sign s.whole := by
  obtain ⟨sign, whole, fraction, exponent⟩ := s
  obtain ⟨rfl, rfl⟩ := h
  rfl

theorem text_ofDigits (sign : NumeralSign) (ds : DigitRun) :
    (ofDigits sign ds).text.toList = sign.chars ++ ds.chars := by
  simp [text, unsigned, ofDigits, fractionPart, exponentPart]

theorem value_ofDigits (sign : NumeralSign) (ds : DigitRun) :
    (ofDigits sign ds).value = (sign.apply ds.value : ℤ) := by
  have hmagnitude : (ofDigits sign ds).magnitude = ds.value := by
    simp [magnitude, ofDigits, fractionDigits, exponentValue]
  rw [value, hmagnitude]
  cases sign <;> simp [ofDigits, NumeralSign.isMinus, NumeralSign.apply]

end Numeral

/-- The whole numbers within bounds are spelled by plain numerals.  A minus sign is taken only
    where negative numbers are. -/
theorem Literal.integerWithin?_eq_some_iff {low high n : ℤ} {text : String} :
    integerWithin? low high text = some n ↔
      ∃ s : Numeral, s.IsPlain ∧ s.text = text ∧ s.value = n ∧ low ≤ n ∧ n ≤ high ∧
        (s.sign = .minus → low < 0) := by
  constructor
  · intro hread
    obtain ⟨sign, hminus, hsplit⟩ := exists_sign text.toList
    unfold integerWithin? at hread
    simp only [hminus] at hread
    split at hread
    · cases hread
    rename_i hsign
    split at hread
    · cases hread
    rename_i value hdigits
    obtain ⟨ds, hds, rfl⟩ := digits?_eq_some_iff.1 hdigits
    rw [signed_isMinus] at hread
    split at hread
    · rename_i hbounds
      cases hread
      refine ⟨.ofDigits sign ds, ⟨rfl, rfl⟩, ?_, Numeral.value_ofDigits sign ds, hbounds.1, hbounds.2, ?_⟩
      · rw [← String.toList_inj, Numeral.text_ofDigits, hds]
        exact hsplit.symm
      · rintro rfl
        exact not_le.1 fun hle => hsign ⟨rfl, hle⟩
    · cases hread
  · rintro ⟨s, hplain, rfl, hvalue, hlow, hhigh, hminus⟩
    rw [hplain.eq_ofDigits] at hvalue hminus ⊢
    rw [Numeral.value_ofDigits, Int.cast_inj] at hvalue
    have hsplit := splitSign_append s.sign s.whole []
    rw [List.append_nil, ← Numeral.text_ofDigits] at hsplit
    have hread := digits?_eq_some_iff.2 ⟨s.whole, rfl, rfl⟩
    unfold integerWithin?
    rw [hsplit]
    simp only [hread, signed_isMinus, hvalue]
    -- The sign is refused only where the bounds refuse the number as well.
    have hsign : ¬(s.sign.isMinus = true ∧ 0 ≤ low) := by
      rintro ⟨hneg, hnonneg⟩
      have hlow' : low < 0 := by
        apply hminus
        cases hs : s.sign with
        | minus => rfl
        | none | plus => rw [hs] at hneg; cases hneg
      omega
    rw [if_neg hsign, if_pos ⟨hlow, hhigh⟩]

/-! ## Decimals -/

namespace Numeral

def decimal (s : Numeral) : Decimal :=
  ⟨s.sign.isMinus, Nat.ofDigitChars 10 (s.whole.chars ++ s.fractionDigits) 0,
    s.exponentValue - s.fractionDigits.length⟩

theorem value_decimal (s : Numeral) : s.decimal.value = s.magnitude := by
  have hten : (10 : ℚ) ≠ 0 := by norm_num
  have hpow : (10 : ℚ) ^ s.fractionDigits.length ≠ 0 := pow_ne_zero _ hten
  have hcoefficient : (s.decimal.coefficient : ℚ) =
      s.whole.value * 10 ^ s.fractionDigits.length + Nat.ofDigitChars 10 s.fractionDigits 0 := by
    have hdigits : s.decimal.coefficient =
        Nat.ofDigitChars 10 s.fractionDigits (Nat.ofDigitChars 10 s.whole.chars 0) :=
      Nat.ofDigitChars_append ..
    rw [hdigits, Nat.ofDigitChars_eq_ofDigitChars_zero]
    push_cast
    rw [DigitRun.value]
    ring
  have hexponent : s.decimal.exponent = s.exponentValue - (s.fractionDigits.length : ℤ) := rfl
  rw [Decimal.value, hcoefficient, hexponent, zpow_sub₀ hten, zpow_natCast, magnitude]
  field_simp

theorem exponent?_exponentPart (s : Numeral) :
    Literal.exponent? s.exponentPart = some s.exponentValue := by
  unfold exponentPart exponentValue
  cases s.exponent with
  | none => rfl
  | some e =>
    obtain ⟨sign, ds⟩ := e
    have hsplit := Literal.splitSign_append sign ds []
    rw [List.append_nil] at hsplit
    have hread := Literal.digits?_eq_some_iff.2 ⟨ds, rfl, rfl⟩
    simp [Literal.exponent?, hsplit, hread, Literal.signed_isMinus]

/-- An exponent starts with its mark. -/
theorem exponentPart_eq (s : Numeral) : s.exponentPart = [] ∨ ∃ cs, s.exponentPart = 'e' :: cs := by
  unfold exponentPart
  cases s.exponent with
  | none => exact .inl rfl
  | some e => exact .inr ⟨_, rfl⟩

theorem head?_exponentPart (s : Numeral) : ∀ c ∈ s.exponentPart.head?, c.isDigit = false := by
  intro c hc
  rcases s.exponentPart_eq with hnone | ⟨cs, hmark⟩
  · rw [hnone] at hc
    cases hc
  · rw [hmark] at hc
    cases hc
    rfl

/-- A numeral is read as its digits and its exponent. -/
theorem decimal?_unsigned (s : Numeral) :
    Literal.decimal? s.sign.isMinus s.unsigned = some s.decimal := by
  have hexponent := s.exponent?_exponentPart
  have hhead := s.head?_exponentPart
  have hwhole := s.whole.ne_nil
  unfold Literal.decimal? unsigned decimal fractionDigits fractionPart
  cases s.fraction with
  | none =>
    rw [List.nil_append, s.whole.takeWhile_append hhead, s.whole.dropWhile_append hhead]
    -- What follows the digits is no point but an exponent, or nothing.
    rcases s.exponentPart_eq with hnone | ⟨cs, hmark⟩
    · rw [hnone] at hexponent ⊢
      simp [hwhole, hexponent, Literal.natOfDigits_eq]
    · rw [hmark] at hexponent ⊢
      simp [hwhole, hexponent, Literal.natOfDigits_eq]
  | some ds =>
    have hpoint : ∀ c ∈ ('.' :: ds.chars ++ s.exponentPart).head?, c.isDigit = false := by
      intro c hc
      cases hc
      rfl
    rw [s.whole.takeWhile_append hpoint, s.whole.dropWhile_append hpoint]
    simp [hwhole, hexponent, ds.takeWhile_append hhead, ds.dropWhile_append hhead,
      Literal.natOfDigits_eq]

theorem toLower_of_isDigit {c : Char} (hc : c.isDigit) : c.toLower = c := by
  have hle : c.val.toNat ≤ 57 := (Char.isDigit_iff_toNat.1 hc).2
  unfold Char.toLower
  apply dif_neg
  intro hcapital
  have hge : 65 ≤ c.val.toNat := UInt32.le_iff_toNat_le.1 hcapital.1
  omega

/-- A numeral is read as a decimal: it is not the name of an infinity or of the NaN. -/
theorem float?_text (s : Numeral) : Literal.float? s.text = some s.decimal.toBinary64 := by
  have hsplit := Literal.splitSign_append s.sign s.whole (s.fractionPart ++ s.exponentPart)
  obtain ⟨c, cs, hcs, hc⟩ := s.whole.exists_cons
  have hletter : ¬c = 'i' ∧ ¬c = 'n' := by
    constructor
    · rintro rfl
      cases hc
    · rintro rfl
      cases hc
  have hname : ∀ name : List Char, name.head? = some 'i' ∨ name.head? = some 'n' →
      s.unsigned.map Char.toLower ≠ name := by
    rintro name hhead rfl
    rw [unsigned, hcs, List.cons_append, List.map_cons, List.head?_cons, toLower_of_isDigit hc] at hhead
    simp [hletter] at hhead
  unfold Literal.float? text
  rw [String.toList_ofList, unsigned, hsplit, ← unsigned]
  simp only [if_neg (hname "nan".toList (.inr rfl)), s.decimal?_unsigned, Option.map_some,
    hname "inf".toList (.inl rfl), hname "infinity".toList (.inl rfl), or_self, if_false]

end Numeral

/-! ## Texts of one number -/

namespace Numeral

variable {s s' : Numeral}

theorem splitSign_text (s : Numeral) :
    Literal.splitSign s.text.toList = (s.sign.isMinus, s.unsigned) := by
  rw [text, String.toList_ofList, unsigned]
  exact Literal.splitSign_append ..

/-- Plain numerals are those that have nothing but digits behind the sign. -/
theorem isPlain_iff : s.IsPlain ↔ ∀ c ∈ s.unsigned, c.isDigit := by
  constructor
  · rintro ⟨hfraction, hexponent⟩ c hc
    simp only [unsigned, fractionPart, exponentPart, hfraction, hexponent, List.append_nil] at hc
    exact s.whole.digits c hc
  · intro hdigits
    constructor
    · cases hfraction : s.fraction with
      | none => rfl
      | some ds =>
        have hpoint : '.' ∈ s.unsigned := by simp [unsigned, fractionPart, hfraction]
        cases hdigits '.' hpoint
    · cases hexponent : s.exponent with
      | none => rfl
      | some e =>
        have hmark : 'e' ∈ s.unsigned := by simp [unsigned, exponentPart, hexponent]
        cases hdigits 'e' hmark

/-- A text says whether it is a plain numeral and what it is worth. -/
theorem eq_of_text_eq (h : s.text = s'.text) : (s.IsPlain ↔ s'.IsPlain) ∧ s.value = s'.value := by
  have hsplit := s.splitSign_text
  rw [h, s'.splitSign_text, Prod.mk.injEq] at hsplit
  obtain ⟨hminus, hunsigned⟩ := hsplit
  have hdecimal := s.decimal?_unsigned
  rw [← hminus, ← hunsigned, s'.decimal?_unsigned, Option.some.injEq] at hdecimal
  constructor
  · rw [isPlain_iff, isPlain_iff, hunsigned]
  · rw [value, value, ← value_decimal, ← value_decimal, hminus, hdecimal]

/-- A text is read as a whole number only if it is a plain numeral, and then as what it is
    worth. -/
theorem integerWithin?_text (s : Numeral) {low high n : ℤ} (hlow : low < 0) :
    Literal.integerWithin? low high s.text = some n ↔
      s.IsPlain ∧ s.value = n ∧ low ≤ n ∧ n ≤ high := by
  rw [Literal.integerWithin?_eq_some_iff]
  constructor
  · rintro ⟨s', hplain, htext, hvalue, hbounds, hhigh, -⟩
    obtain ⟨hsame, hworth⟩ := eq_of_text_eq htext
    exact ⟨hsame.1 hplain, hworth.symm.trans hvalue, hbounds, hhigh⟩
  · rintro ⟨hplain, hvalue, hbounds, hhigh⟩
    exact ⟨s, hplain, rfl, hvalue, hbounds, hhigh, fun _ => hlow⟩

end Numeral

end Protobuf
