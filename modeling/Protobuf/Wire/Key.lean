import Protobuf.Wire.Varint

/-! # Record keys

An encoded message is a series of records.  Each opens with a key, the varint
`8 * number + wireType.code`, which says which field the record is for and how its
payload is laid out.

* `FieldKey.ofRaw`: the wire type is judged before the number.
* `FieldKey.encode` refuses numbers that no field can have; `FieldKey.decode`
  reads what it wrote.
-/

namespace Protobuf

def WireType.ofCode : Nat → Except DecodeError WireType
  | 0 => .ok .varint
  | 1 => .ok .fixed64
  | 2 => .ok .delimited
  | 3 => .ok .startGroup
  | 4 => .ok .endGroup
  | 5 => .ok .fixed32
  | code => .error (.invalidWireType code)

theorem WireType.ofCode_code (w : WireType) : ofCode w.code = .ok w := by
  cases w <;> rfl

def WireType.isGroup : WireType → Bool
  | .startGroup | .endGroup => true
  | _ => false

def minFieldNumber : Nat := 1

/-- The greatest field number: a key holds 29 bits for it. -/
def maxFieldNumber : Nat := 0x1FFF_FFFF

/-- Whether a field may have this number. -/
def IsFieldNumber (number : Nat) : Prop :=
  minFieldNumber ≤ number ∧ number ≤ maxFieldNumber

instance (number : Nat) : Decidable (IsFieldNumber number) :=
  inferInstanceAs (Decidable (_ ∧ _))

structure FieldKey where
  number : Nat
  wireType : WireType
deriving DecidableEq, Repr

namespace FieldKey

/-- The key that a raw integer stands for.  Of an unknown wire type and a number
    out of range, the wire type is the one reported. -/
def ofRaw (raw : Nat) : Except DecodeError FieldKey :=
  match WireType.ofCode (raw % 8) with
  | .error e => .error e
  | .ok wireType =>
    if IsFieldNumber (raw / 8) then .ok ⟨raw / 8, wireType⟩
    else .error (.invalidFieldNumber (raw / 8))

def raw (key : FieldKey) : Nat := 8 * key.number + key.wireType.code

def encode (key : FieldKey) : Except Misuse Bytes :=
  if IsFieldNumber key.number then .ok (Varint.encode key.raw)
  else .error (.fieldNumberOutOfRange key.number)

def decode (bytes : Bytes) : Except DecodeError FieldKey × Bytes :=
  match Varint.decode .w64 bytes with
  | (.error e, rest) => (.error e, rest)
  | (.ok raw, rest) => (ofRaw raw, rest)

/-- A key that a field may have is read back from its raw integer. -/
theorem ofRaw_raw {key : FieldKey} (h : IsFieldNumber key.number) : ofRaw key.raw = .ok key := by
  obtain ⟨number, wireType⟩ := key
  have hlt : wireType.code < 8 := by cases wireType <;> decide
  have hmod : (8 * number + wireType.code) % 8 = wireType.code := by omega
  have hdiv : (8 * number + wireType.code) / 8 = number := by omega
  simp only [ofRaw, raw, hmod, hdiv, WireType.ofCode_code]
  rw [if_pos h]

/-- Reading a key leaves an end of the input. -/
theorem decode_suffix (bytes : Bytes) : (decode bytes).2 <:+ bytes := by
  have := Varint.decode_suffix .w64 bytes
  unfold decode
  split <;> simp_all

theorem decode_eq_ok_iff {bytes rest : Bytes} {key : FieldKey} :
    decode bytes = (.ok key, rest) ↔
      ∃ raw, Varint.decode .w64 bytes = (.ok raw, rest) ∧ ofRaw raw = .ok key := by
  rw [decode]
  constructor
  · intro h
    split at h
    · cases h
    · rename_i raw tail hraw
      obtain ⟨hkey, rfl⟩ := Prod.mk.inj h
      exact ⟨raw, hraw, hkey⟩
  · rintro ⟨raw, hraw, hkey⟩
    rw [hraw]
    simp only [hkey]

/-- A key that was read has consumed at least one byte. -/
theorem decode_length_lt {bytes rest : Bytes} {key : FieldKey}
    (h : decode bytes = (.ok key, rest)) : rest.length < bytes.length := by
  obtain ⟨raw, hraw, -⟩ := decode_eq_ok_iff.1 h
  exact Varint.decode_length_lt hraw

end FieldKey

end Protobuf
