import Mathlib.Algebra.Group.Int.Defs
import Mathlib.Algebra.Group.Nat.Defs
import Protobuf.Wire.Varint

/-! # Varints are read back

The shortest form of an integer is read back at every width that the integer fits,
and nothing behind it is touched.

* `decodeWithin_groups`: the groups of an integer, read with room for them.
* `decode_append_encode`: a whole varint in front of any bytes.
* `length_encode_le`: how long it is.
* `decode_lt`: what is read fits the width.
-/

namespace Protobuf.Varint

theorem toNat_ofNat_byte {n : Nat} (h : n < 256) : (UInt8.ofNat n).toNat = n := by
  rw [UInt8.toNat_ofNat', Nat.mod_eq_of_lt h]

/-- `more + 1` groups spell `n` if it has no more bits than that, and if the last
    byte that the width allows is not overfull. -/
theorem decodeWithin_groups (w : Width) {more left n : Nat} (rest : Bytes)
    (room : more < left) (bound : n < 128 ^ (more + 1))
    (last : left = more + 1 → n / 128 ^ more ≤ w.lastByteMax) :
    decodeWithin w left (groups more n ++ rest) = (.ok n, rest) := by
  induction more generalizing left n with
  | zero =>
    -- The last group: it may be overfull only if the width allows no byte behind it.
    obtain ⟨left, rfl⟩ : ∃ l, left = l + 1 := ⟨left - 1, by omega⟩
    have hn : n < 128 := by simpa using bound
    have hlast : ¬(left = 0 ∧ w.lastByteMax < n) := by
      rintro ⟨rfl, hlt⟩
      have := last rfl
      simp at this
      omega
    simp only [groups, List.cons_append, List.nil_append, decodeWithin,
      toNat_ofNat_byte (show n < 256 by omega)]
    rw [if_neg hlast, if_pos hn]
  | succ more ih =>
    obtain ⟨left, rfl⟩ : ∃ l, left = l + 1 := ⟨left - 1, by omega⟩
    have hbyte : (UInt8.ofNat (n % 128 + 128)).toNat = n % 128 + 128 :=
      toNat_ofNat_byte (by omega)
    -- A group in front of others holds the low seven bits, and the others the rest.
    have hhigh : n / 128 < 128 ^ (more + 1) := by
      rw [Nat.div_lt_iff_lt_mul (by decide), ← Nat.pow_succ]
      exact bound
    have hih : decodeWithin w left (groups more (n / 128) ++ rest) = (.ok (n / 128), rest) := by
      refine ih (by omega) hhigh fun heq => ?_
      rw [Nat.div_div_eq_div_mul, Nat.mul_comm, ← Nat.pow_succ]
      exact last (by omega)
    simp only [groups, List.cons_append, decodeWithin, hbyte, hih]
    rw [if_neg (by omega), if_neg (by omega)]
    have : n % 128 + 128 - 128 + 128 * (n / 128) = n := by omega
    rw [this]

theorem lt_pow_groups (n : Nat) : n < 128 ^ (n.log2 / 7 + 1) := by
  have hpow : (128 : Nat) ^ (n.log2 / 7 + 1) = 2 ^ (7 * (n.log2 / 7 + 1)) := by
    rw [Nat.pow_mul]
  rw [hpow]
  calc n < 2 ^ (n.log2 + 1) := Nat.lt_log2_self
    _ ≤ 2 ^ (7 * (n.log2 / 7 + 1)) := Nat.pow_le_pow_right (by decide) (by omega)

/-- The shortest form of an integer that fits the width is read back, whatever
    follows it. -/
theorem decode_append_encode (w : Width) {n : Nat} (h : n < 2 ^ w.bits) (rest : Bytes) :
    decode w (encode n ++ rest) = (.ok n, rest) := by
  have hlog : n.log2 < w.bits := by
    rcases Nat.eq_zero_or_pos n with rfl | hpos
    · cases w <;> decide
    · exact (Nat.log2_lt (by omega)).2 h
  -- An integer of the width has room, and fills the last byte no further than the width does.
  refine decodeWithin_groups w rest ?_ (lt_pow_groups n) ?_
  · cases w <;> simp only [Width.bits, Width.maxBytes] at hlog ⊢ <;> omega
  · intro hlast
    cases w with
    | w32 =>
      simp only [Width.bits, Width.maxBytes, Width.lastByteMax] at h hlast ⊢
      have : n.log2 / 7 = 4 := by omega
      rw [this]
      omega
    | w64 =>
      simp only [Width.bits, Width.maxBytes, Width.lastByteMax] at h hlast ⊢
      have : n.log2 / 7 = 9 := by omega
      rw [this]
      omega

theorem encode_ne_nil (n : Nat) : encode n ≠ [] := by
  unfold encode
  cases n.log2 / 7 <;> simp [groups]

theorem length_groups (more n : Nat) : (groups more n).length = more + 1 := by
  induction more generalizing n with
  | zero => rfl
  | succ more ih => simp [groups, ih]

/-- An integer of 64 bits takes ten bytes at most. -/
theorem length_encode_le {n : Nat} (h : n < 2 ^ 64) : (encode n).length ≤ 10 := by
  rw [encode, length_groups]
  rcases Nat.eq_zero_or_pos n with rfl | hpos
  · decide
  · have := (Nat.log2_lt (by omega)).2 h
    omega

/-! ## What is read fits -/

/-- A width leaves room for fewer bits in its last byte than a continuation bit takes. -/
theorem Width.lastByteMax_lt (w : Width) : w.lastByteMax < 128 := by
  cases w <;> decide

/-- The bits in front of the last byte, and those that this byte may have, are those of a word. -/
theorem Width.two_pow_bits (w : Width) :
    2 ^ w.bits = (w.lastByteMax + 1) * 128 ^ (w.maxBytes - 1) := by
  cases w <;> decide

/-- What is read with room for `left + 1` bytes fits what is above the bytes in front. -/
theorem decodeWithin_lt {w : Width} {left n : Nat} {bytes rest : Bytes}
    (h : decodeWithin w (left + 1) bytes = (.ok n, rest)) :
    n < (w.lastByteMax + 1) * 128 ^ left := by
  induction left generalizing bytes n with
  | zero =>
    have := w.lastByteMax_lt
    obtain ⟨b, tail, -, hfits, ⟨-, rfl, -⟩ | ⟨-, high, hhigh, -⟩⟩ := decodeWithin_eq_ok_iff.1 h
    · omega
    · cases hhigh
  | succ left ih =>
    have hgrow : (w.lastByteMax + 1) * 128 ^ (left + 1) =
        128 * ((w.lastByteMax + 1) * 128 ^ left) := by
      rw [Nat.pow_succ, ← Nat.mul_assoc, Nat.mul_comm]
    have hmin : 1 ≤ (w.lastByteMax + 1) * 128 ^ left :=
      Nat.mul_pos (Nat.succ_pos _) (Nat.pow_pos (by decide))
    obtain ⟨b, tail, -, -, ⟨hlast, rfl, -⟩ | ⟨-, high, hhigh, rfl⟩⟩ := decodeWithin_eq_ok_iff.1 h
    · omega
    · have := ih hhigh
      have := b.toNat_lt
      omega

/-- What is read fits a word of the width. -/
theorem decode_lt {w : Width} {n : Nat} {bytes rest : Bytes} (h : decode w bytes = (.ok n, rest)) :
    n < 2 ^ w.bits := by
  have hmax : w.maxBytes - 1 + 1 = w.maxBytes := by cases w <;> rfl
  rw [decode, ← hmax] at h
  rw [w.two_pow_bits]
  exact decodeWithin_lt h

end Protobuf.Varint
