import Protobuf.Proofs.Wire.VarintForms

/-! # Varints in machine words

A program that holds integers in words of the width reads a varint by shifting each group to
its place, and writes one by shifting the groups out; how long it is follows from the bits that
are in use.  Nothing is shifted out of a word on the way, so this is what reading and writing
integers comes to.

* `Varint.readWord`, `readWord_eq`: the loop that reads.
* `Varint.writeWord`, `writeWord_eq`: the loop that writes, and counts the bytes.
* `Varint.wordSize`, `wordSize_eq`: the length, by the leading zeros of a word.
* `Varint.leb128_exact`: what is read from which bytes, what is written, and how long it is.
-/

namespace Protobuf.Varint

/-- Reads on behind `i` bytes, whose groups are in `value`.  With a value comes the number of
    bytes that it was read from. -/
def readGroups (w : Width) : (i : Nat) → (value : BitVec w.bits) → Bytes →
    Except DecodeError (BitVec w.bits × Nat) × Bytes
  | i, _, [] => (.error (if i < w.maxBytes then .unexpectedEnd else .invalidVarint), [])
  | i, value, b :: rest =>
    if i < w.maxBytes then
      if i = w.maxBytes - 1 ∧ w.lastByteMax < b.toNat then (.error .invalidVarint, rest)
      else
        let group := (b.toBitVec &&& 0x7f).setWidth w.bits
        let value := value ||| group <<< (7 * i)
        if b < 0x80 then (.ok (value, i + 1), rest) else readGroups w (i + 1) value rest
    else (.error .invalidVarint, b :: rest)

def readWord (w : Width) (bytes : Bytes) : Except DecodeError (BitVec w.bits × Nat) × Bytes :=
  readGroups w 0 0 bytes

variable {w : Width} {i left : Nat} {b : UInt8} {bytes rest : Bytes}

/-- A group goes to its place unharmed, beside those that were there. -/
theorem toNat_or_group {value : BitVec w.bits} (hvalue : value.toNat < 128 ^ i)
    (fits : b.toNat % 128 * 128 ^ i < 2 ^ w.bits) :
    (value ||| (b.toBitVec &&& 0x7f).setWidth w.bits <<< (7 * i)).toNat =
      value.toNat + 128 ^ i * (b.toNat % 128) := by
  have hpow : (128 : Nat) ^ i = 2 ^ (7 * i) := Nat.pow_mul 2 7 i ▸ rfl
  have hgroup : (b.toBitVec &&& 0x7f).toNat = b.toNat % 128 :=
    Nat.and_two_pow_sub_one_eq_mod b.toNat 7
  have hsmall : b.toNat % 128 < 2 ^ w.bits :=
    Nat.lt_of_le_of_lt (Nat.le_mul_of_pos_right _ (Nat.pow_pos (by decide))) fits
  rw [BitVec.toNat_or, BitVec.toNat_shiftLeft, BitVec.toNat_setWidth, hgroup,
    Nat.mod_eq_of_lt hsmall, Nat.shiftLeft_eq, ← hpow, Nat.mod_eq_of_lt fits, Nat.or_comm,
    Nat.mul_comm, hpow, ← Nat.two_pow_add_eq_or_of_lt (hpow ▸ hvalue), Nat.add_comm]

/-- A reading of an integer in words, behind bytes whose groups are in `value`. -/
def inWords (w : Width) (i : Nat) (value : BitVec w.bits) (bytes : Bytes) :
    Except DecodeError Nat × Bytes → Except DecodeError (BitVec w.bits × Nat) × Bytes
  | (.ok n, rest) =>
    (.ok (BitVec.ofNat w.bits (value.toNat + 128 ^ i * n), i + (bytes.length - rest.length)), rest)
  | (.error e, rest) => (.error e, rest)

/-- A group that the width has room for fits its place. -/
theorem group_fits (room : i + (left + 1) = w.maxBytes)
    (hover : ¬(left = 0 ∧ w.lastByteMax < b.toNat)) : b.toNat % 128 * 128 ^ i < 2 ^ w.bits := by
  rw [w.two_pow_bits]
  by_cases hleft : left = 0
  · -- The last byte has no more bits than are left over.
    have hlast : b.toNat % 128 < w.lastByteMax + 1 := by
      have := Nat.mod_le b.toNat 128
      omega
    have hi : w.maxBytes - 1 = i := by omega
    rw [hi]
    exact Nat.mul_lt_mul_of_pos_right hlast (Nat.pow_pos (by decide))
  · have hgroup : b.toNat % 128 * 128 ^ i < 128 ^ (i + 1) := by
      rw [Nat.pow_succ, Nat.mul_comm]
      exact Nat.mul_lt_mul_of_pos_left (Nat.mod_lt _ (by decide)) (Nat.pow_pos (by decide))
    calc b.toNat % 128 * 128 ^ i < 128 ^ (i + 1) := hgroup
      _ ≤ 128 ^ (w.maxBytes - 1) := Nat.pow_le_pow_right (by decide) (by omega)
      _ ≤ (w.lastByteMax + 1) * 128 ^ (w.maxBytes - 1) := Nat.le_mul_of_pos_left _ (Nat.succ_pos _)

/-- A group that goes on is part of the word that the groups behind it are read with. -/
theorem inWords_succ {value value' : BitVec w.bits} (hmore : ¬b.toNat < 128)
    (hvalue : value'.toNat = value.toNat + 128 ^ i * (b.toNat % 128)) {high : Nat} {tail : Bytes}
    (hle : tail.length ≤ rest.length) :
    inWords w (i + 1) value' rest (.ok high, tail) =
      inWords w i value (b :: rest) (.ok (b.toNat - 128 + 128 * high), tail) := by
  have hb := b.toNat_lt
  have hgroup : b.toNat % 128 = b.toNat - 128 := by omega
  have hsum : value'.toNat + 128 ^ (i + 1) * high =
      value.toNat + 128 ^ i * (b.toNat - 128 + 128 * high) := by
    rw [hvalue, hgroup, Nat.pow_succ, Nat.mul_add, Nat.add_assoc, Nat.mul_assoc]
  have hcount : i + 1 + (rest.length - tail.length) = i + ((b :: rest).length - tail.length) := by
    rw [List.length_cons]
    omega
  rw [inWords, inWords, hsum, hcount]

theorem readGroups_eq {value : BitVec w.bits} (room : i + left = w.maxBytes)
    (hvalue : value.toNat < 128 ^ i) :
    readGroups w i value bytes = inWords w i value bytes (decodeWithin w left bytes) := by
  -- Behind each byte the groups in front are in the word, and as many bytes fewer are left.
  induction bytes generalizing i left value with
  | nil =>
    cases left with
    | zero =>
      rw [readGroups, if_neg (by omega)]
      rfl
    | succ left =>
      rw [readGroups, if_pos (by omega)]
      rfl
  | cons b rest ih =>
    cases left with
    | zero =>
      rw [readGroups, if_neg (by omega)]
      rfl
    | succ left =>
      rw [readGroups, if_pos (by omega), decodeWithin]
      by_cases hover : left = 0 ∧ w.lastByteMax < b.toNat
      · rw [if_pos ⟨by omega, hover.2⟩, if_pos hover]
        rfl
      · rw [if_neg (by omega), if_neg hover]
        have hor := toNat_or_group hvalue (group_fits room hover)
        by_cases hlast : b.toNat < 128
        · have hlast' : b < 0x80 := UInt8.lt_iff_toNat_lt.2 hlast
          rw [Nat.mod_eq_of_lt hlast] at hor
          rw [if_pos hlast', if_pos hlast, inWords, ← hor, BitVec.ofNat_toNat, List.length_cons]
          simp
        · have hlast' : ¬b < 0x80 := fun h => hlast (UInt8.lt_iff_toNat_lt.1 h)
          have hgroup : 128 ^ i * (b.toNat % 128) ≤ 128 ^ i * 127 :=
            Nat.mul_le_mul_left _ (by omega)
          have hsucc : (128 : Nat) ^ (i + 1) = 128 ^ i * 128 := Nat.pow_succ ..
          rw [if_neg hlast', if_neg hlast, ih (by omega : i + 1 + left = w.maxBytes) (by omega)]
          have hle := (decodeWithin_suffix w left rest).length_le
          generalize decodeWithin w left rest = outcome at hle ⊢
          obtain ⟨result, tail⟩ := outcome
          cases result with
          | error e => rfl
          | ok high => exact inWords_succ hlast hor hle

/-- The loop over words reads what is read otherwise, from as many bytes. -/
theorem readWord_eq (w : Width) (bytes : Bytes) :
    readWord w bytes = inWords w 0 0 bytes (decode w bytes) := by
  apply readGroups_eq (Nat.zero_add _)
  simp

/-! ## Writing and reading back -/

/-- Writes the low group of a word and goes on with the rest while there is one.  With the bytes
    comes their number. -/
def writeWord {n : Nat} (v : BitVec n) : Bytes × Nat :=
  if 0x80 ≤ v.toNat then
    let (bytes, written) := writeWord (v >>> 7)
    (⟨v.setWidth 8 &&& 0x7f ||| 0x80⟩ :: bytes, written + 1)
  else ([⟨v.setWidth 8⟩], 1)
termination_by v.toNat
decreasing_by
  rw [BitVec.toNat_ushiftRight, Nat.shiftRight_eq_div_pow]
  omega

theorem log2_div_128 {n : Nat} (h : 128 ≤ n) : n.log2 = (n / 128).log2 + 7 := by
  have hne : n / 128 ≠ 0 := by omega
  obtain ⟨hlow, hhigh⟩ := (Nat.log2_eq_iff hne).1 rfl
  rw [Nat.log2_eq_iff (by omega), Nat.pow_add, Nat.add_right_comm, Nat.pow_add]
  generalize 2 ^ (n / 128).log2 = low at *
  generalize 2 ^ ((n / 128).log2 + 1) = high at *
  omega

theorem encode_of_lt {n : Nat} (h : n < 128) : encode n = [UInt8.ofNat n] := by
  have hlog : n.log2 / 7 = 0 := by
    by_cases hn : n = 0
    · subst hn
      rfl
    · have := (Nat.log2_lt (k := 7) hn).2 h
      omega
  rw [encode, hlog, groups]

theorem encode_of_le {n : Nat} (h : 128 ≤ n) :
    encode n = UInt8.ofNat (n % 128 + 128) :: encode (n / 128) := by
  have hlog : n.log2 / 7 = (n / 128).log2 / 7 + 1 := by
    rw [log2_div_128 h]
    omega
  rw [encode, hlog, groups, encode]

/-- The byte of a group that others follow. -/
theorem toNat_more (b : BitVec 8) : (b &&& 0x7f ||| 0x80).toNat = b.toNat % 128 + 128 := by
  have hand : (b &&& 0x7f).toNat = b.toNat % 128 := Nat.and_two_pow_sub_one_eq_mod b.toNat 7
  have hlt : b.toNat % 128 < 2 ^ 7 := Nat.mod_lt _ (by decide)
  rw [BitVec.toNat_or, hand, Nat.or_comm, Nat.add_comm]
  exact (Nat.two_pow_add_eq_or_of_lt hlt 1).symm

/-- The loop over words writes the shortest form and counts its bytes. -/
theorem writeWord_eq {n : Nat} (v : BitVec n) :
    writeWord v = (encode v.toNat, (encode v.toNat).length) := by
  -- Each round shifts one group out, which divides what is left by 128.
  induction hv : v.toNat using Nat.strongRecOn generalizing v with
  | ind m ih =>
    rw [writeWord]
    by_cases h : 0x80 ≤ v.toNat
    · have hshift : (v >>> 7).toNat = v.toNat / 128 := by
        rw [BitVec.toNat_ushiftRight, Nat.shiftRight_eq_div_pow]
      have hrest := ih _ (by omega) (v >>> 7) rfl
      have hbyte : (⟨v.setWidth 8 &&& 0x7f ||| 0x80⟩ : UInt8) = UInt8.ofNat (v.toNat % 128 + 128) := by
        apply UInt8.toNat_inj.1
        rw [toNat_ofNat_byte (by omega)]
        refine (toNat_more _).trans ?_
        rw [BitVec.toNat_setWidth]
        omega
      rw [if_pos h, hrest, hshift, hbyte, ← hv, encode_of_le h]
      simp
    · have hbyte : (⟨v.setWidth 8⟩ : UInt8) = UInt8.ofNat v.toNat := by
        apply UInt8.toNat_inj.1
        rw [toNat_ofNat_byte (by omega)]
        refine (BitVec.toNat_setWidth 8 v).trans ?_
        omega
      rw [if_neg h, hbyte, ← hv, encode_of_lt (by omega)]
      rfl

def wordSize {n : Nat} (v : BitVec n) : Nat := max ((n - v.clz.toNat + 6) / 7) 1

theorem wordSize_eq (w : Width) (v : BitVec w.bits) : wordSize v = size v.toNat := by
  have hbits : 0 < w.bits := by cases w <;> decide
  by_cases hv : v = 0
  · subst hv
    cases w <;> rfl
  · have hne : v.toNat ≠ 0 := fun h => hv (BitVec.eq_of_toNat_eq h)
    -- The highest bit in use is the one behind the leading zeros.
    have hlow := BitVec.two_pow_sub_clz_le_toNat_of_ne_zero hbits hv
    have hhigh := BitVec.toNat_lt_two_pow_sub_clz (x := v)
    rw [← Nat.le_log2 hne] at hlow
    rw [← Nat.log2_lt hne] at hhigh
    rw [wordSize, size]
    omega

/-- Let `k` bytes in front have the continuation bit.  A value is read exactly if a byte follows
    them that the width has room for; it is what `k + 1` groups spell, and they are consumed.  The
    bytes end too early exactly if all of them have the continuation bit and the width allows more;
    all are consumed then.  Otherwise the varint is invalid, and as many bytes are consumed as the
    width allows.  Words of the width hold all that is read on the way.

    The loop that writes a word writes the shortest form; the number of bytes that it counts, the one
    that follows from the bits in use, and the length are one.  What is written is read back
    whatever follows it, and nothing that is shorter is read as the same value. -/
theorem leb128_exact (w : Width) (bytes rest : Bytes) (v : BitVec w.bits) :
    ((∀ n, decode w bytes = (.ok n, rest) ↔ Ends w bytes ∧
        n = groupsValue (bytes.take (continuing bytes + 1)) ∧
        rest = bytes.drop (continuing bytes + 1)) ∧
      (decode w bytes = (.error .unexpectedEnd, rest) ↔ BreaksOff w bytes ∧ rest = []) ∧
      (¬Ends w bytes → ¬BreaksOff w bytes → w.maxBytes ≤ bytes.length ∧
        decode w bytes = (.error .invalidVarint, bytes.drop w.maxBytes)) ∧
      (∀ n, decode w bytes = (.ok n, rest) → n < 2 ^ w.bits ∧
        readWord w bytes = (.ok (BitVec.ofNat w.bits n, bytes.length - rest.length), rest)) ∧
      ∀ e, decode w bytes = (.error e, rest) → readWord w bytes = (.error e, rest)) ∧
    writeWord v = (encode v.toNat, (encode v.toNat).length) ∧
    wordSize v = (encode v.toNat).length ∧ size v.toNat = (encode v.toNat).length ∧
    decode w (encode v.toNat ++ rest) = (.ok v.toNat, rest) ∧
    (decode w bytes = (.ok v.toNat, rest) → (encode v.toNat).length + rest.length ≤ bytes.length) := by
  have hsize := size_eq_length_encode v.toNat
  refine ⟨⟨fun n => decode_eq_ok_iff, decode_eq_unexpectedEnd_iff, decode_of_overlong, ?_, ?_⟩,
    writeWord_eq v, (wordSize_eq w v).trans hsize.symm, hsize.symm,
    decode_append_encode w v.isLt rest, fun h => hsize ▸ size_le_of_decode h⟩
  · intro n h
    refine ⟨decode_lt h, ?_⟩
    rw [readWord_eq, h, inWords]
    simp
  · intro e h
    rw [readWord_eq, h, inWords]

end Protobuf.Varint
