import Mathlib.Tactic.IntervalCases
import Protobuf.Text.Base64

/-! # Base64 is read back

The canonical text of bytes is read back by either reader, and the strict one reads nothing
else.

* `value?_digit`, `eq_digit_of_value?`: the alphabet.
* `decode?_encodeChars`, `decode?_eq_some_iff`: the strict reader.
* `Formed`, `exists_formed`: the format of the canonical text, told by numbers.
* `decodeTolerant?_encode`: the tolerant reader, which finds nothing to mend.
-/

namespace Protobuf.Base64

theorem value?_digit : ∀ n < 64, value? (digit n) = some n := by decide +kernel

theorem digit_ne_padding : ∀ n < 64, digit n ≠ '=' := by decide +kernel

theorem standardChar_digit : ∀ n < 64, standardChar (digit n) = digit n := by decide +kernel

/-- A character of a range is a digit if the range is one of digits. -/
theorem eq_digit_of_range {low high c : Char} {first : Nat} (h : low ≤ c ∧ c ≤ high)
    (last : first + (high.toNat - low.toNat) < 64)
    (digits : ∀ n < high.toNat - low.toNat + 1, digit (n + first) = Char.ofNat (n + low.toNat)) :
    c.toNat - low.toNat + first < 64 ∧ c = digit (c.toNat - low.toNat + first) := by
  have hlow : low.toNat ≤ c.toNat := h.1
  have hhigh : c.toNat ≤ high.toNat := h.2
  refine ⟨by omega, ?_⟩
  rw [digits _ (by omega), Nat.sub_add_cancel hlow, Char.ofNat_toNat]

/-- Only digits have a value. -/
theorem eq_digit_of_value? {c : Char} {n : Nat} (h : value? c = some n) : n < 64 ∧ c = digit n := by
  unfold value? at h
  split at h
  · rename_i upper
    cases h
    exact @eq_digit_of_range 'A' 'Z' c 0 upper (by decide) (by decide +kernel)
  · split at h
    · rename_i lower
      cases h
      exact eq_digit_of_range lower (by decide) (by decide +kernel)
    · split at h
      · rename_i numeral
        cases h
        exact eq_digit_of_range numeral (by decide) (by decide +kernel)
      · split at h
        · rename_i plus
          cases h
          exact ⟨by decide, plus.trans (by decide +kernel)⟩
        · split at h
          · rename_i slash
            cases h
            exact ⟨by decide, slash.trans (by decide +kernel)⟩
          · cases h

theorem byte_eq {n : Nat} {b : UInt8} (h : n = b.toNat) : byte n = b := by
  rw [h, byte, UInt8.ofNat_toNat]

/-! ## Groups -/

/-- The canonical text is read back, group by group. -/
theorem decode?_encodeChars (bytes : Bytes) : decode? (encodeChars bytes) = some bytes := by
  -- Bits that a short last group has to spare are zero, as the reader asks.
  fun_induction encodeChars bytes with
  | case1 => rfl
  | case2 a =>
    have ha := a.toNat_lt
    have hspare : a.toNat % 4 * 16 % 16 = 0 := by omega
    simp [decode?, value?_digit _ (show a.toNat / 4 < 64 by omega),
      value?_digit _ (show a.toNat % 4 * 16 < 64 by omega), hspare]
    exact byte_eq (by omega)
  | case3 a b =>
    have ha := a.toNat_lt
    have hb := b.toNat_lt
    have hvb := value?_digit _ (show a.toNat % 4 * 16 + b.toNat / 16 < 64 by omega)
    have hvc := value?_digit _ (show b.toNat % 16 * 4 < 64 by omega)
    have hc := digit_ne_padding _ (show b.toNat % 16 * 4 < 64 by omega)
    have hspare : b.toNat % 16 * 4 % 4 = 0 := by omega
    simp [decode?, value?_digit _ (show a.toNat / 4 < 64 by omega), hvb, hvc, hc, hspare]
    exact ⟨byte_eq (by omega), byte_eq (by omega)⟩
  | case4 a b c rest ih =>
    have ha := a.toNat_lt
    have hb := b.toNat_lt
    have hc := c.toNat_lt
    have hvb := value?_digit _ (show a.toNat % 4 * 16 + b.toNat / 16 < 64 by omega)
    have hvc := value?_digit _ (show b.toNat % 16 * 4 + c.toNat / 64 < 64 by omega)
    have hvd := value?_digit _ (show c.toNat % 64 < 64 by omega)
    have hd := digit_ne_padding _ (show c.toNat % 64 < 64 by omega)
    simp [decode?, value?_digit _ (show a.toNat / 4 < 64 by omega), hvb, hvc, hvd, hd, ih]
    exact ⟨byte_eq (by omega), byte_eq (by omega), byte_eq (by omega)⟩

theorem toNat_byte {n : Nat} (h : n < 256) : (byte n).toNat = n := by
  rw [byte, UInt8.toNat_ofNat', Nat.mod_eq_of_lt h]

section Groups

variable {va vb vc vd : Nat} (ha : va < 64) (hb : vb < 64)

include ha hb

theorem encodeChars_one (spare : vb % 16 = 0) :
    encodeChars [byte (va * 4 + vb / 16)] = [digit va, digit vb, '=', '='] := by
  rw [encodeChars, toNat_byte (by omega), show (va * 4 + vb / 16) / 4 = va by omega,
    show (va * 4 + vb / 16) % 4 * 16 = vb by omega]

theorem encodeChars_two (hc : vc < 64) (spare : vc % 4 = 0) :
    encodeChars [byte (va * 4 + vb / 16), byte (vb % 16 * 16 + vc / 4)] =
      [digit va, digit vb, digit vc, '='] := by
  rw [encodeChars, toNat_byte (by omega), toNat_byte (by omega),
    show (va * 4 + vb / 16) / 4 = va by omega,
    show (va * 4 + vb / 16) % 4 * 16 + (vb % 16 * 16 + vc / 4) / 16 = vb by omega,
    show (vb % 16 * 16 + vc / 4) % 16 * 4 = vc by omega]

theorem encodeChars_three (hc : vc < 64) (hd : vd < 64) (rest : Bytes) :
    encodeChars (byte (va * 4 + vb / 16) :: byte (vb % 16 * 16 + vc / 4) :: byte (vc % 4 * 64 + vd) ::
      rest) = digit va :: digit vb :: digit vc :: digit vd :: encodeChars rest := by
  rw [encodeChars, toNat_byte (by omega), toNat_byte (by omega), toNat_byte (by omega),
    show (va * 4 + vb / 16) / 4 = va by omega,
    show (va * 4 + vb / 16) % 4 * 16 + (vb % 16 * 16 + vc / 4) / 16 = vb by omega,
    show (vb % 16 * 16 + vc / 4) % 16 * 4 + (vc % 4 * 64 + vd) / 64 = vc by omega,
    show (vc % 4 * 64 + vd) % 64 = vd by omega]

end Groups

/-- What is read is the canonical text of the bytes, group by group. -/
theorem eq_encodeChars_of_decode? {cs : List Char} {bytes : Bytes} (h : decode? cs = some bytes) :
    cs = encodeChars bytes := by
  fun_induction decode? cs generalizing bytes with
  | case1 =>
    cases h
    rfl
  | case2 a b c d rest ih =>
    simp only [Option.bind_eq_bind, Option.bind_eq_some_iff] at h
    obtain ⟨va, hva, vb, hvb, h⟩ := h
    obtain ⟨ha, rfl⟩ := eq_digit_of_value? hva
    obtain ⟨hb, rfl⟩ := eq_digit_of_value? hvb
    -- The text ends with two characters of padding or with one, or it may go on.
    split at h
    · rename_i hend
      obtain ⟨rfl, rfl, rfl⟩ := hend
      split at h
      · rename_i spare
        cases h
        exact (encodeChars_one ha hb spare).symm
      · cases h
    · simp only [Option.bind_eq_some_iff] at h
      obtain ⟨vc, hvc, h⟩ := h
      obtain ⟨hc, rfl⟩ := eq_digit_of_value? hvc
      split at h
      · rename_i hend
        obtain ⟨rfl, rfl⟩ := hend
        split at h
        · rename_i spare
          cases h
          exact (encodeChars_two ha hb hc spare).symm
        · cases h
      · simp only [Option.bind_eq_some_iff] at h
        obtain ⟨vd, hvd, more, hmore, h⟩ := h
        obtain ⟨hd, rfl⟩ := eq_digit_of_value? hvd
        cases h
        rw [ih hmore, encodeChars_three ha hb hc hd]
  | case3 => cases h

/-- The strict reader accepts exactly the canonical text. -/
theorem decode?_eq_some_iff {cs : List Char} {bytes : Bytes} :
    decode? cs = some bytes ↔ cs = encodeChars bytes :=
  ⟨eq_encodeChars_of_decode?, fun h => h ▸ decode?_encodeChars bytes⟩

/-! ## The format -/

/-- The number that digits spell, highest first, behind a number that is there already. -/
def bigEndian (base : Nat) (digits : List Nat) (high : Nat) : Nat :=
  digits.foldl (fun n d => base * n + d) high

/-- The format of a text, told without groups: digits of six bits that spell the bytes, with
    zero bits behind them up to a whole digit, and padding up to a whole group. -/
structure Formed (cs : List Char) (bytes : Bytes) (digits : List Nat) (padding : Nat) : Prop where
  text : cs = digits.map digit ++ List.replicate padding '='
  lt : ∀ n ∈ digits, n < 64
  bits : 6 * digits.length = 8 * bytes.length + 2 * padding
  padding_lt : padding < 3
  value : ∀ high, bigEndian 64 digits high =
    4 ^ padding * bigEndian 256 (bytes.map (·.toNat)) high

theorem exists_formed (bytes : Bytes) : ∃ digits padding,
    Formed (encodeChars bytes) bytes digits padding := by
  fun_induction encodeChars bytes with
  | case1 => exact ⟨[], 0, rfl, by simp, rfl, by decide, fun high => by simp [bigEndian]⟩
  | case2 a =>
    have ha := a.toNat_lt
    refine ⟨[a.toNat / 4, a.toNat % 4 * 16], 2, rfl, ?_, rfl, by decide, fun high => ?_⟩
    · simp only [List.forall_mem_cons]
      exact ⟨by omega, by omega, by simp⟩
    · simp only [bigEndian, List.map_cons, List.map_nil, List.foldl_cons, List.foldl_nil]
      omega
  | case3 a b =>
    have ha := a.toNat_lt
    have hb := b.toNat_lt
    refine ⟨[a.toNat / 4, a.toNat % 4 * 16 + b.toNat / 16, b.toNat % 16 * 4], 1, rfl, ?_, rfl,
      by decide, fun high => ?_⟩
    · simp only [List.forall_mem_cons]
      exact ⟨by omega, by omega, by omega, by simp⟩
    · simp only [bigEndian, List.map_cons, List.map_nil, List.foldl_cons, List.foldl_nil]
      omega
  | case4 a b c rest ih =>
    have ha := a.toNat_lt
    have hb := b.toNat_lt
    have hc := c.toNat_lt
    obtain ⟨digits, padding, text, lt, bits, padding_lt, value⟩ := ih
    refine ⟨a.toNat / 4 :: (a.toNat % 4 * 16 + b.toNat / 16) :: (b.toNat % 16 * 4 + c.toNat / 64) ::
      c.toNat % 64 :: digits, padding, ?_, ?_, ?_, padding_lt, fun high => ?_⟩
    · rw [text]
      rfl
    · simp only [List.forall_mem_cons]
      exact ⟨by omega, by omega, by omega, by omega, lt⟩
    · simp only [List.length_cons]
      omega
    · -- Four digits and three bytes are the same 24 bits.
      have same : 64 * (64 * (64 * (64 * high + a.toNat / 4) + (a.toNat % 4 * 16 + b.toNat / 16)) +
          (b.toNat % 16 * 4 + c.toNat / 64)) + c.toNat % 64 =
          256 * (256 * (256 * high + a.toNat) + b.toNat) + c.toNat := by omega
      simp only [bigEndian, List.map_cons, List.foldl_cons] at value ⊢
      rw [same, value]

namespace Formed

variable {cs : List Char} {bytes : Bytes} {digits : List Nat} {padding : Nat}

/-- What stands at a place: a digit, or padding behind all digits. -/
theorem getElem? (h : Formed cs bytes digits padding) {i : Nat} {c : Char} (hc : cs[i]? = some c) :
    (∃ n, digits[i]? = some n ∧ n < 64 ∧ c = digit n) ∨
      digits.length ≤ i ∧ i < digits.length + padding ∧ c = '=' := by
  rw [h.text, List.getElem?_append, List.length_map] at hc
  split at hc
  · rw [List.getElem?_map, Option.map_eq_some_iff] at hc
    obtain ⟨n, hn, rfl⟩ := hc
    exact .inl ⟨n, hn, h.lt n (List.mem_of_getElem? hn), rfl⟩
  · rw [List.getElem?_replicate] at hc
    split at hc
    · cases hc
      exact .inr ⟨by omega, by omega, rfl⟩
    · cases hc

/-- The last digit holds only bits of the bytes. -/
theorem dvd_last (h : Formed cs bytes digits padding) {n : Nat}
    (last : digits.getLast? = some n) : 4 ^ padding ∣ n := by
  obtain ⟨front, rfl⟩ := List.getLast?_eq_some_iff.1 last
  have value := h.value 0
  rw [bigEndian, List.foldl_append, List.foldl_cons, List.foldl_nil] at value
  have sixty : 4 ^ padding ∣ 64 := by
    have := h.padding_lt
    interval_cases padding <;> decide
  refine (Nat.dvd_add_right (dvd_mul_of_dvd_left sixty _)).1 (value ▸ dvd_mul_right _ _)

end Formed

/-! ## The tolerant reader -/

theorem map_standardChar_encodeChars (bytes : Bytes) :
    (encodeChars bytes).map standardChar = encodeChars bytes := by
  have hpadding : standardChar '=' = '=' := by decide
  fun_induction encodeChars bytes with
  | case1 => rfl
  | case2 a =>
    have ha := a.toNat_lt
    simp [standardChar_digit _ (show a.toNat / 4 < 64 by omega),
      standardChar_digit _ (show a.toNat % 4 * 16 < 64 by omega), hpadding]
  | case3 a b =>
    have ha := a.toNat_lt
    have hb := b.toNat_lt
    simp [standardChar_digit _ (show a.toNat / 4 < 64 by omega),
      standardChar_digit _ (show a.toNat % 4 * 16 + b.toNat / 16 < 64 by omega),
      standardChar_digit _ (show b.toNat % 16 * 4 < 64 by omega), hpadding]
  | case4 a b c rest ih =>
    have ha := a.toNat_lt
    have hb := b.toNat_lt
    have hc := c.toNat_lt
    simp [standardChar_digit _ (show a.toNat / 4 < 64 by omega),
      standardChar_digit _ (show a.toNat % 4 * 16 + b.toNat / 16 < 64 by omega),
      standardChar_digit _ (show b.toNat % 16 * 4 + c.toNat / 64 < 64 by omega),
      standardChar_digit _ (show c.toNat % 64 < 64 by omega), ih]

/-- The canonical text has no padding left to add. -/
theorem length_encodeChars (bytes : Bytes) : (encodeChars bytes).length % 4 = 0 := by
  fun_induction encodeChars bytes with
  | case1 | case2 | case3 => simp
  | case4 a b c rest ih =>
    simp only [List.length_cons]
    omega

theorem pad_encodeChars (bytes : Bytes) : pad (encodeChars bytes) = encodeChars bytes := by
  unfold pad
  rw [length_encodeChars]
  simp

/-- The canonical text is read back by the tolerant reader. -/
theorem decodeTolerant?_encode (bytes : Bytes) : decodeTolerant? (encode bytes) = some bytes := by
  unfold decodeTolerant? encode
  rw [String.toList_ofList, map_standardChar_encodeChars, pad_encodeChars, decode?_encodeChars]

end Protobuf.Base64
