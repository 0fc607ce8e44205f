import Protobuf.Proofs.Wire.Varint
import Protobuf.Wire.Scalar

/-! # Scalars are read back

One value of any kind, written and read again.  The bytes behind it are left alone,
so that values may stand one after the other.

* `Bytes.Addressable`: bytes that a machine can hold.
* `Scalar.toPayload`: the payload that a value is written as.
* `Scalar.take_append_put`: a written value at the front of the input.
* `Scalar.unpack_pack`: a packed list of values.
-/

namespace Protobuf

/-- Bytes that a machine can hold: they are counted in one 64-bit word. -/
def Bytes.Addressable (bytes : Bytes) : Prop := bytes.length < 2 ^ 64

instance (bytes : Bytes) : Decidable bytes.Addressable :=
  inferInstanceAs (Decidable (bytes.length < 2 ^ 64))

theorem Bytes.Addressable.of_length_le {part whole : Bytes} (h : whole.Addressable)
    (le : part.length ≤ whole.length) : part.Addressable :=
  Nat.lt_of_le_of_lt le h

theorem Scalar.text?_textBytes (s : String) : text? (textBytes s) = some s := by
  have harray : (⟨(textBytes s).toArray⟩ : ByteArray) = s.toByteArray := by
    rw [textBytes, String.toUTF8_eq_toByteArray, Array.toArray_toList]
  unfold text?
  rw [harray, String.fromUTF8?, dif_pos s.isValidUTF8]
  rfl

/-! ## Words -/

theorem Scalar.word64_lt (n : Int) : word64 n < 2 ^ 64 := by
  unfold word64; omega

theorem Scalar.word32_lt (n : Int) : word32 n < 2 ^ 32 := by
  unfold word32; omega

/-- A word holds the low bits of the integer that it was made of. -/
theorem Scalar.int32_ofInt_word (i : Int) : Int32.ofInt (word64 i) = Int32.ofInt i := by
  rw [← Int32.toInt_inj, Int32.toInt_ofInt, Int32.toInt_ofInt, word64, Int.bmod_def, Int.bmod_def]
  simp only [Int32.size]
  split <;> split <;> omega

theorem Scalar.int64_ofInt_word (i : Int) : Int64.ofInt (word64 i) = Int64.ofInt i := by
  rw [← Int64.toInt_inj, Int64.toInt_ofInt, Int64.toInt_ofInt, word64, Int.bmod_def, Int.bmod_def]
  simp only [Int64.size]
  split <;> split <;> omega

theorem Scalar.int32_ofInt_word64 (n : Int32) : Int32.ofInt (word64 n.toInt) = n := by
  rw [int32_ofInt_word, Int32.ofInt_toInt]

theorem Scalar.int32_ofInt_word32 (n : Int32) : Int32.ofInt (word32 n.toInt) = n := by
  have hlow := n.le_toInt
  have hhigh := n.toInt_lt
  rw [← Int32.toInt_inj, Int32.toInt_ofInt, word32, Int.bmod_def]
  simp only [Int32.size]
  split <;> omega

theorem Scalar.int64_ofInt_word64 (n : Int64) : Int64.ofInt (word64 n.toInt) = n := by
  rw [int64_ofInt_word, Int64.ofInt_toInt]

theorem ZigZag.encode_int32_lt (n : Int32) : encode n.toInt < 0x1_0000_0000 := by
  have hlow := n.le_toInt
  have hhigh := n.toInt_lt
  generalize n.toInt = i at hlow hhigh
  cases i <;> simp only [encode, Int.ofNat_eq_natCast] at hlow hhigh ⊢ <;> omega

theorem ZigZag.encode_int64_lt (n : Int64) : encode n.toInt < 2 ^ 64 := by
  have hlow := n.le_toInt
  have hhigh := n.toInt_lt
  generalize n.toInt = i at hlow hhigh
  cases i <;> simp only [encode, Int.ofNat_eq_natCast] at hlow hhigh ⊢ <;> omega

/-! ## Payloads -/

theorem length_le_delimit (bytes : Bytes) : bytes.length ≤ (delimit bytes).length := by
  simp [delimit]

theorem delimit_ne_nil (bytes : Bytes) : delimit bytes ≠ [] := by
  simp [delimit, Varint.encode_ne_nil]

namespace Payload

theorem take_varint {n : Nat} (h : n < 2 ^ 64) (rest : Bytes) :
    take .varint (Varint.encode n ++ rest) = (.ok (UInt64.ofNat n), rest) := by
  simp only [take, Varint.decode_append_encode .w64 h rest]

theorem take_fixed64 (n : Nat) (rest : Bytes) :
    take .fixed64 (Bytes.ofNat 8 n ++ rest) = (.ok (UInt64.ofNat n), rest) := by
  have hsplit := Bytes.split?_append (Bytes.ofNat 8 n) rest
  rw [Bytes.length_ofNat] at hsplit
  have hword : UInt64.ofNat (Bytes.toNat (Bytes.ofNat 8 n)) = UInt64.ofNat n := by
    rw [Bytes.toNat_ofNat, Nat.pow_eq, ← UInt64.toNat_inj, UInt64.toNat_ofNat', UInt64.toNat_ofNat']
    omega
  simp only [take, hsplit, hword]

theorem take_fixed32 (n : Nat) (rest : Bytes) :
    take .fixed32 (Bytes.ofNat 4 n ++ rest) = (.ok (UInt32.ofNat n), rest) := by
  have hsplit := Bytes.split?_append (Bytes.ofNat 4 n) rest
  rw [Bytes.length_ofNat] at hsplit
  have hword : UInt32.ofNat (Bytes.toNat (Bytes.ofNat 4 n)) = UInt32.ofNat n := by
    rw [Bytes.toNat_ofNat, Nat.pow_eq, ← UInt32.toNat_inj, UInt32.toNat_ofNat', UInt32.toNat_ofNat']
    omega
  simp only [take, hsplit, hword]

theorem take_delimited {bytes : Bytes} (h : bytes.Addressable) (rest : Bytes) :
    take .delimited (delimit bytes ++ rest) = (.ok bytes, rest) := by
  have hlength : decodeLength (delimit bytes ++ rest) = (.ok bytes.length, bytes ++ rest) := by
    rw [delimit, List.append_assoc]
    exact decodeLength_eq_ok_iff.2 ⟨Varint.decode_append_encode .w64 h _, by simp⟩
  simp only [take, hlength, List.take_left, List.drop_left]

end Payload

/-! ## Values -/

namespace Scalar

def toPayload : (k : Scalar) → k.Carrier → Payload k.wireType
  | double, x => Binary64.bits x
  | float, x => Binary32.bits x
  | int32, n => UInt64.ofNat (word64 (Int32.toInt n))
  | int64, n => UInt64.ofNat (word64 (Int64.toInt n))
  | uint32, n => UInt64.ofNat (UInt32.toNat n)
  | uint64, n => (n : UInt64)
  | sint32, n => UInt64.ofNat (ZigZag.encode (Int32.toInt n))
  | sint64, n => UInt64.ofNat (ZigZag.encode (Int64.toInt n))
  | fixed32, n => (n : UInt32)
  | fixed64, n => (n : UInt64)
  | sfixed32, n => UInt32.ofNat (word32 (Int32.toInt n))
  | sfixed64, n => UInt64.ofNat (word64 (Int64.toInt n))
  | bool, b => UInt64.ofNat (Bool.toNat b)
  | string, s => textBytes s
  | bytes, bs => (bs : List UInt8)

theorem ofPayload_textBytes (s : String) : ofPayload .string (textBytes s) = .ok s := by
  simp only [ofPayload, text?_textBytes]

theorem ofPayload_toPayload (k : Scalar) (v : k.Carrier) : k.ofPayload (k.toPayload v) = .ok v := by
  cases k with
  | double | float | uint64 | fixed32 | fixed64 | bytes => rfl
  | int32 =>
    simp only [ofPayload, toPayload, UInt64.toNat_ofNat_of_lt' (word64_lt _)]
    exact congrArg _ (int32_ofInt_word64 v)
  | int64 | sfixed64 =>
    simp only [ofPayload, toPayload, UInt64.toNat_ofNat_of_lt' (word64_lt _)]
    exact congrArg _ (int64_ofInt_word64 v)
  | sfixed32 =>
    simp only [ofPayload, toPayload, UInt32.toNat_ofNat_of_lt' (word32_lt _)]
    exact congrArg _ (int32_ofInt_word32 v)
  | uint32 =>
    have hlt := UInt32.toNat_lt v
    simp only [ofPayload, toPayload, UInt64.toNat_ofNat_of_lt' (show UInt32.toNat v < 2 ^ 64 by omega)]
    exact congrArg _ (UInt32.ofNat_toNat)
  | sint32 =>
    have hlt := ZigZag.encode_int32_lt v
    simp only [ofPayload, toPayload,
      UInt64.toNat_ofNat_of_lt' (show ZigZag.encode (Int32.toInt v) < 2 ^ 64 by omega),
      Nat.mod_eq_of_lt hlt, ZigZag.decode_encode]
    exact congrArg _ (Int32.ofInt_toInt v)
  | sint64 =>
    simp only [ofPayload, toPayload, UInt64.toNat_ofNat_of_lt' (ZigZag.encode_int64_lt v),
      ZigZag.decode_encode]
    exact congrArg _ (Int64.ofInt_toInt v)
  | bool => cases v <;> rfl
  | string => exact ofPayload_textBytes v

theorem take_payload_append_put (k : Scalar) (v : k.Carrier) (h : (k.put v).Addressable)
    (rest : Bytes) : Payload.take k.wireType (k.put v ++ rest) = (.ok (k.toPayload v), rest) := by
  cases k with
  | double | fixed64 =>
    exact (Payload.take_fixed64 _ rest).trans (congrArg (Except.ok ·, rest) UInt64.ofNat_toNat)
  | float | fixed32 =>
    exact (Payload.take_fixed32 _ rest).trans (congrArg (Except.ok ·, rest) UInt32.ofNat_toNat)
  | sfixed64 => exact Payload.take_fixed64 _ rest
  | sfixed32 => exact Payload.take_fixed32 _ rest
  | int32 | int64 => exact Payload.take_varint (word64_lt _) rest
  | uint32 =>
    have hlt := UInt32.toNat_lt v
    exact Payload.take_varint (by omega) rest
  | uint64 =>
    exact (Payload.take_varint (UInt64.toNat_lt v) rest).trans
      (congrArg (Except.ok ·, rest) UInt64.ofNat_toNat)
  | sint32 =>
    have hlt := ZigZag.encode_int32_lt v
    exact Payload.take_varint (by omega) rest
  | sint64 => exact Payload.take_varint (ZigZag.encode_int64_lt v) rest
  | bool => exact Payload.take_varint (by cases v <;> decide) rest
  | string | bytes => exact Payload.take_delimited (h.of_length_le (length_le_delimit _)) rest

theorem take_append_put (k : Scalar) (v : k.Carrier) (h : (k.put v).Addressable) (rest : Bytes) :
    k.take (k.put v ++ rest) = (.ok v, rest) := by
  simp only [take, take_payload_append_put k v h rest, ofPayload_toPayload]

theorem put_ne_nil (k : Scalar) (v : k.Carrier) : k.put v ≠ [] := by
  cases k with
  | string | bytes => exact delimit_ne_nil _
  | _ => simp [put, Varint.encode_ne_nil, Bytes.ofNat]

theorem unpack_pack (k : Scalar) (vs : List k.Carrier) (h : (k.pack vs).Addressable) :
    k.unpack (k.pack vs) = (.ok (), vs) := by
  induction vs with
  | nil => rw [pack, List.flatMap_nil, unpack]
  | cons v vs ih =>
    have hpack : k.pack (v :: vs) = k.put v ++ k.pack vs := rfl
    rw [hpack] at h ⊢
    have htake := take_append_put k v (h.of_length_le (by simp)) (k.pack vs)
    -- No value is written as nothing, so the reader goes on.
    obtain ⟨b, bs, hcons⟩ := List.exists_cons_of_ne_nil (put_ne_nil k v)
    rw [hcons, List.cons_append] at htake ⊢
    rw [unpack]
    split
    · simp_all
    · rename_i v' rest heq
      rw [htake] at heq
      obtain ⟨hv, rfl⟩ := Prod.mk.inj heq
      cases hv
      rw [ih (h.of_length_le (by simp))]

end Scalar

end Protobuf
