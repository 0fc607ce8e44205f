import Mathlib.Algebra.Order.Floor.Div
import Mathlib.Data.Nat.Size
import Protobuf.Proofs.Wire.Scalar
import Protobuf.Proofs.Wire.VarintWords

/-! # Signed integers in order of magnitude

In machine words a signed integer is doubled by a shift, and all bits are turned over if it is
negative: its sign, shifted into every bit, is the mask.  The way back halves a word and takes
the mask from its lowest bit.  Doubling may shift the sign out of the word, and nothing else.

* `ZigZag.encodeWord`, `toNat_encodeWord`: the word of a signed integer.
* `ZigZag.decodeWord`, `toInt_decodeWord`: the signed integer of a word.
* `ZigZag.encode_lt_encode`: what is greater in magnitude has the greater word.
* `Varint.size_eq_ceilDiv`, `Varint.size_le_size`: seven bits take a byte.
* `ZigZag.magnitude_order`: words and signed integers are paired off in order of magnitude, and
  no integer takes more bytes than one of greater magnitude.
-/

namespace Protobuf

namespace ZigZag

variable {n : Nat} {i j : Int}

/-- The word of the signed integer that the bits `x` are. -/
def encodeWord (x : BitVec n) : BitVec n := x <<< 1 ^^^ x.sshiftRight (n - 1)

def decodeWord (u : BitVec n) : BitVec n := u >>> 1 ^^^ -(u &&& 1#n)

theorem encode_eq (i : Int) : (encode i : Int) = if 0 ≤ i then 2 * i else -2 * i - 1 := by
  cases i with
  | ofNat m => simp [encode]
  | negSucc m =>
    rw [if_neg (by omega), encode]
    omega

/-- An arithmetic shift by all bits but one leaves the sign in every bit. -/
theorem sshiftRight_eq_sign (x : BitVec n) :
    x.sshiftRight (n - 1) = if x.toInt < 0 then BitVec.allOnes n else 0#n := by
  apply BitVec.eq_of_toInt_eq
  have hlow := BitVec.le_toInt x
  have hhigh := BitVec.toInt_lt (x := x)
  rw [BitVec.toInt_sshiftRight, Int.shiftRight_eq_div_pow]
  by_cases hneg : x.toInt < 0
  · have hn : 0 < n := by
      apply Nat.pos_of_ne_zero
      rintro rfl
      simp [BitVec.of_length_zero] at hneg
    rw [if_pos hneg, BitVec.toInt_allOnes, if_pos hn]
    exact Int.ediv_eq_neg_one_of_neg_of_le hneg (by push_cast; omega)
  · rw [if_neg hneg, BitVec.toInt_zero]
    exact Int.ediv_eq_zero_of_lt (by omega) (by push_cast; omega)

theorem toNat_shiftLeft_one (x : BitVec n) : (x <<< 1).toNat = 2 * x.toNat % 2 ^ n := by
  rw [BitVec.toNat_shiftLeft, Nat.shiftLeft_eq, Nat.pow_one, Nat.mul_comm]

/-- The word of a signed integer is what the integer is encoded as, at every width. -/
theorem toNat_encodeWord (x : BitVec n) : (encodeWord x).toNat = encode x.toInt := by
  have hx := x.isLt
  have hencode := encode_eq x.toInt
  have hvalue := BitVec.toInt_eq_toNat_cond x
  have hsign := BitVec.toInt_neg_iff (x := x)
  rw [encodeWord, sshiftRight_eq_sign]
  by_cases hneg : x.toInt < 0
  · -- The sign is shifted out, and all that is left is turned over.
    have hcarry : 2 * x.toNat % 2 ^ n = 2 * x.toNat - 2 ^ n := by
      rw [Nat.mod_eq_sub_mod (by omega), Nat.mod_eq_of_lt (by omega)]
    rw [if_neg (by omega)] at hencode hvalue
    rw [if_pos hneg, BitVec.xor_allOnes, BitVec.toNat_not, toNat_shiftLeft_one, hcarry]
    omega
  · rw [if_pos (by omega)] at hencode hvalue
    rw [if_neg hneg, BitVec.xor_zero, toNat_shiftLeft_one, Nat.mod_eq_of_lt (by omega)]
    omega

/-- The least integer of a width has the greatest word. -/
example : encodeWord (BitVec.intMin 64) = BitVec.allOnes 64 := by decide

theorem and_one_eq (u : BitVec n) : u &&& 1#n = if u.toNat % 2 = 0 then 0#n else 1#n := by
  have hbit : u.getLsbD 0 = decide (u.toNat % 2 = 1) := Nat.testBit_zero u.toNat
  rw [BitVec.and_one_eq_setWidth_ofBool_getLsbD, hbit]
  obtain heven | hodd := Nat.mod_two_eq_zero_or_one u.toNat
  · simp [heven]
  · apply BitVec.eq_of_toNat_eq
    simp [hodd]

/-- The signed integer of a word is what the word is decoded as, at every width. -/
theorem toInt_decodeWord (u : BitVec n) : (decodeWord u).toInt = decode u.toNat := by
  have hu := u.isLt
  have hhalf : (u >>> 1).toNat = u.toNat / 2 := by
    rw [BitVec.toNat_ushiftRight, Nat.shiftRight_eq_div_pow, Nat.pow_one]
  rw [decodeWord, and_one_eq, decode]
  by_cases heven : u.toNat % 2 = 0
  · -- Half a word is below the sign bit, and so it is read as it is.
    rw [if_pos heven, if_pos heven, BitVec.neg_zero, BitVec.xor_zero, BitVec.toInt_eq_toNat_cond,
      hhalf, if_pos (by omega)]
    rfl
  · -- Turned over, it is read as a negative integer.
    rw [if_neg heven, if_neg heven, BitVec.neg_one_eq_allOnes, BitVec.xor_allOnes,
      BitVec.toInt_eq_toNat_cond, BitVec.toNat_not, hhalf, if_neg (by omega)]
    omega

theorem decodeWord_encodeWord (x : BitVec n) : decodeWord (encodeWord x) = x := by
  apply BitVec.eq_of_toInt_eq
  rw [toInt_decodeWord, toNat_encodeWord, decode_encode]

/-- Every word is that of a signed integer. -/
theorem encodeWord_decodeWord (u : BitVec n) : encodeWord (decodeWord u) = u := by
  apply BitVec.eq_of_toNat_eq
  rw [toNat_encodeWord, toInt_decodeWord, encode_decode]

theorem encode_lt_encode (h : i.natAbs < j.natAbs) : encode i < encode j := by
  have hi := encode_eq i
  have hj := encode_eq j
  split at hi <;> split at hj <;> omega

end ZigZag

/-! ## Lengths and order -/

namespace Varint

/-- A byte for each seven bits of an integer that are begun, and one for zero. -/
theorem size_eq_ceilDiv (m : Nat) : size m = max 1 (m.size ⌈/⌉ 7) := by
  rw [size, Nat.ceilDiv_eq_add_pred_div]
  by_cases hm : m = 0
  · subst hm
    simp
  · have hbits : m.size = m.log2 + 1 := Nat.le_antisymm (Nat.size_le.2 Nat.lt_log2_self)
      (Nat.lt_size.2 (Nat.log2_self_le hm))
    rw [hbits]
    omega

theorem size_le_size {m k : Nat} (h : m ≤ k) : size m ≤ size k :=
  size_le_of_lt (Nat.lt_of_le_of_lt h (lt_pow_groups k))

end Varint

namespace ZigZag

/-- What a signed integer of a width is written as, in fields whose integers go by magnitude. -/
def put : (w : Varint.Width) → BitVec w.bits → Bytes
  | .w32, x => Scalar.put .sint32 (Int32.ofBitVec x)
  | .w64, x => Scalar.put .sint64 (Int64.ofBitVec x)

theorem put_eq (w : Varint.Width) (x : BitVec w.bits) :
    put w x = Varint.encode (encodeWord x).toNat := by
  rw [toNat_encodeWord]
  cases w <;> rfl

theorem length_put (w : Varint.Width) (x : BitVec w.bits) :
    (put w x).length = Varint.size (encodeWord x).toNat := by
  rw [put_eq, Varint.size_eq_length_encode]

/-- The loop that writes 64-bit words writes the same. -/
theorem writeWord_encodeWord (w : Varint.Width) (x : BitVec w.bits) :
    Varint.writeWord ((encodeWord x).setWidth 64) = (put w x, (put w x).length) := by
  have hwide : ((encodeWord x).setWidth 64).toNat = (encodeWord x).toNat := by
    apply BitVec.toNat_setWidth_of_le
    cases w <;> decide
  rw [Varint.writeWord_eq, hwide, put_eq]

/-- At both widths the word of a signed integer is twice the integer, or one less than twice its
    magnitude if it is negative; no bits are lost, the least integer of the width included.  The
    word leads back to the integer, and every word to an integer that has it.

    A signed integer is written as the varint of its word.  That takes a byte for each seven bits
    of the word that are begun and one byte at least.  An integer of greater magnitude has a greater
    word and takes no fewer bytes. -/
theorem magnitude_order (w : Varint.Width) (x u : BitVec w.bits) :
    ((encodeWord x).toNat = (if 0 ≤ x.toInt then 2 * x.toInt else -2 * x.toInt - 1) ∧
      (encodeWord x).toNat = encode x.toInt ∧ (decodeWord u).toInt = decode u.toNat ∧
      decodeWord (encodeWord x) = x ∧ encodeWord (decodeWord u) = u) ∧
    Varint.writeWord ((encodeWord x).setWidth 64) = (put w x, (put w x).length) ∧
    (put w x).length = max 1 ((encodeWord x).toNat.size ⌈/⌉ 7) ∧
    ∀ y : BitVec w.bits, x.toInt.natAbs < y.toInt.natAbs →
      encodeWord x < encodeWord y ∧ (put w x).length ≤ (put w y).length := by
  refine ⟨⟨?_, toNat_encodeWord x, toInt_decodeWord u, decodeWord_encodeWord x,
    encodeWord_decodeWord u⟩, writeWord_encodeWord w x, ?_, ?_⟩
  · rw [toNat_encodeWord, encode_eq]
  · rw [length_put, Varint.size_eq_ceilDiv]
  · intro y hy
    have hlt : (encodeWord x).toNat < (encodeWord y).toNat := by
      rw [toNat_encodeWord, toNat_encodeWord]
      exact encode_lt_encode hy
    refine ⟨hlt, ?_⟩
    rw [length_put, length_put]
    exact Varint.size_le_size (Nat.le_of_lt hlt)

end ZigZag

end Protobuf
