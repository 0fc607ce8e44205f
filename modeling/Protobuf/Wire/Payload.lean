import Protobuf.Wire.Key

/-! # Payloads and records

What follows a key, by wire type.  A payload is cut off the front of the input
without knowing what field it is for, which is what makes unknown fields
skippable.

* `Payload`: the content that a wire type carries; the group types carry none.
* `Payload.take`: the payload at the front of the input, and the bytes left.
* `Record.next`: a whole record.  A payload that cannot be taken is part of the
  record, so that whoever reads it may look at the wire type first.
-/

namespace Protobuf

def Bytes.toNat : Bytes → Nat
  | [] => 0
  | b :: rest => b.toNat + 256 * Bytes.toNat rest

def Bytes.ofNat : (count : Nat) → Nat → Bytes
  | 0, _ => []
  | count + 1, n => UInt8.ofNat (n % 256) :: Bytes.ofNat count (n / 256)

theorem Bytes.length_ofNat (count n : Nat) : (Bytes.ofNat count n).length = count := by
  induction count generalizing n with
  | zero => rfl
  | succ count ih => simp [Bytes.ofNat, ih]

/-- The low bytes spell the number again, reduced to their range. -/
theorem Bytes.toNat_ofNat (count n : Nat) :
    Bytes.toNat (Bytes.ofNat count n) = n % Nat.pow 256 count := by
  induction count generalizing n with
  | zero => simp [Bytes.ofNat, Bytes.toNat, Nat.mod_one]
  | succ count ih =>
    have hlow : (UInt8.ofNat (n % 256)).toNat = n % 256 := by
      rw [UInt8.toNat_ofNat']; omega
    have hpow : Nat.pow 256 (count + 1) = 256 * Nat.pow 256 count := Nat.mul_comm _ _
    rw [Bytes.ofNat, Bytes.toNat, ih, hlow, hpow, Nat.mod_mul]

def Bytes.split? (count : Nat) (bytes : Bytes) : Option (Bytes × Bytes) :=
  if count ≤ bytes.length then some (bytes.take count, bytes.drop count) else none

/-- What is split off and what is left make up the input. -/
theorem Bytes.split?_eq_some {count : Nat} {bytes front rest : Bytes}
    (h : Bytes.split? count bytes = some (front, rest)) :
    bytes = front ++ rest ∧ front.length = count := by
  unfold Bytes.split? at h
  split at h
  · obtain ⟨rfl, rfl⟩ := by simpa using h
    simp_all
  · simp at h

theorem Bytes.split?_append (front rest : Bytes) :
    Bytes.split? front.length (front ++ rest) = some (front, rest) := by
  simp [Bytes.split?]

/-! ## Payloads -/

/-- The content of a payload.  No payload has a group type. -/
def Payload : WireType → Type
  | .varint => UInt64
  | .fixed64 => UInt64
  | .delimited => Bytes
  | .fixed32 => UInt32
  | .startGroup => Empty
  | .endGroup => Empty

/-- The length prefix of a delimited payload, checked against the bytes that
    follow it. -/
def decodeLength (bytes : Bytes) : Except DecodeError Nat × Bytes :=
  match Varint.decode .w64 bytes with
  | (.error e, rest) => (.error e, rest)
  | (.ok length, rest) =>
    if rest.length < length then (.error .unexpectedEnd, rest) else (.ok length, rest)

/-- A length is read if there are as many bytes behind it. -/
theorem decodeLength_eq_ok_iff {bytes rest : Bytes} {length : Nat} :
    decodeLength bytes = (.ok length, rest) ↔
      Varint.decode .w64 bytes = (.ok length, rest) ∧ length ≤ rest.length := by
  rw [decodeLength]
  constructor
  · intro h
    split at h
    · cases h
    · split at h
      · cases h
      · cases h
        exact ⟨‹_›, by omega⟩
  · rintro ⟨hread, hle⟩
    simp only [hread, if_neg (Nat.not_lt.2 hle)]

theorem decodeLength_suffix (bytes : Bytes) : (decodeLength bytes).2 <:+ bytes := by
  have := Varint.decode_suffix .w64 bytes
  unfold decodeLength
  split
  · simp_all
  · split <;> simp_all

/-- `bytes` behind their length. -/
def delimit (bytes : Bytes) : Bytes := Varint.encode bytes.length ++ bytes

/-- The bytes of a record whose field number is known to be in range. -/
def keyed (number : Nat) (wireType : WireType) (payload : Bytes) : Bytes :=
  Varint.encode (FieldKey.raw ⟨number, wireType⟩) ++ payload

namespace Payload

/-- The payload at the front of the input, and the bytes left.  A word that is cut
    off consumes nothing, a length prefix is consumed even when the payload behind
    it is not there. -/
def take : (w : WireType) → Bytes → Except DecodeError (Payload w) × Bytes
  | .varint, bytes =>
    match Varint.decode .w64 bytes with
    | (.ok n, rest) => (.ok (UInt64.ofNat n), rest)
    | (.error e, rest) => (.error e, rest)
  | .fixed64, bytes =>
    match Bytes.split? 8 bytes with
    | some (word, rest) => (.ok (UInt64.ofNat word.toNat), rest)
    | none => (.error .unexpectedEnd, bytes)
  | .delimited, bytes =>
    match decodeLength bytes with
    | (.ok length, rest) => (.ok (rest.take length), rest.drop length)
    | (.error e, rest) => (.error e, rest)
  | .fixed32, bytes =>
    match Bytes.split? 4 bytes with
    | some (word, rest) => (.ok (UInt32.ofNat word.toNat), rest)
    | none => (.error .unexpectedEnd, bytes)
  | .startGroup, bytes => (.error .deprecatedGroup, bytes)
  | .endGroup, bytes => (.error .deprecatedGroup, bytes)

def skip (w : WireType) (bytes : Bytes) : Except DecodeError Unit × Bytes :=
  match take w bytes with
  | (.ok _, rest) => (.ok (), rest)
  | (.error e, rest) => (.error e, rest)

/-- Taking a payload leaves an end of the input. -/
theorem take_suffix (w : WireType) (bytes : Bytes) : (take w bytes).2 <:+ bytes := by
  cases w with
  | varint =>
    have := Varint.decode_suffix .w64 bytes
    rw [take]
    split <;> simp_all
  | fixed64 | fixed32 =>
    rw [take]
    split
    · rename_i word rest hword
      obtain ⟨rfl, -⟩ := Bytes.split?_eq_some hword
      exact List.suffix_append word rest
    · exact List.suffix_refl _
  | delimited =>
    have := decodeLength_suffix bytes
    rw [take]
    split
    · rename_i length rest hlength
      rw [hlength] at this
      exact (List.drop_suffix length rest).trans this
    · simp_all
  | startGroup | endGroup => exact List.suffix_refl _

/-- A payload that was taken has consumed at least one byte. -/
theorem take_length_lt {w : WireType} {bytes rest : Bytes} {p : Payload w}
    (h : take w bytes = (.ok p, rest)) : rest.length < bytes.length := by
  cases w with
  | varint =>
    rw [take] at h
    split at h
    · rename_i n tail hread
      cases h
      exact Varint.decode_length_lt hread
    · cases h
  | fixed64 | fixed32 =>
    rw [take] at h
    split at h
    · rename_i word tail hword
      cases h
      obtain ⟨rfl, hlength⟩ := Bytes.split?_eq_some hword
      rw [List.length_append]
      omega
    · cases h
  | delimited =>
    rw [take] at h
    split at h
    · rename_i length tail hlength
      cases h
      have hlt := Varint.decode_length_lt (decodeLength_eq_ok_iff.1 hlength).1
      rw [List.length_drop]
      omega
    · cases h
  | startGroup | endGroup => cases h

end Payload

/-! ## Records -/

/-- One record of a message: the field that it is for, and its payload or why the
    payload could not be taken. -/
structure Record where
  number : Nat
  wireType : WireType
  payload : Except DecodeError (Payload wireType)

namespace Record

def next (bytes : Bytes) : Except DecodeError Record × Bytes :=
  match FieldKey.decode bytes with
  | (.error e, rest) => (.error e, rest)
  | (.ok key, rest) =>
    if key.wireType.isGroup then (.error .deprecatedGroup, rest)
    else
      let taken := Payload.take key.wireType rest
      (.ok ⟨key.number, key.wireType, taken.1⟩, taken.2)

/-- A record is met behind its key, whether its payload is there or not. -/
theorem next_eq_ok_iff {bytes rest : Bytes} {r : Record} :
    next bytes = (.ok r, rest) ↔
      ∃ key tail, FieldKey.decode bytes = (.ok key, tail) ∧ ¬key.wireType.isGroup ∧
        r = ⟨key.number, key.wireType, (Payload.take key.wireType tail).1⟩ ∧
        rest = (Payload.take key.wireType tail).2 := by
  rw [next]
  constructor
  · intro h
    split at h
    · cases h
    · rename_i key tail hkey
      split at h
      · cases h
      · rename_i hgroup
        cases h
        exact ⟨key, tail, hkey, hgroup, rfl, rfl⟩
  · rintro ⟨key, tail, hkey, hgroup, rfl, rfl⟩
    simp only [hkey, if_neg hgroup]

/-- A record that was cut off has consumed at least one byte. -/
theorem next_length_lt {bytes rest : Bytes} {r : Record}
    (h : next bytes = (.ok r, rest)) : rest.length < bytes.length := by
  obtain ⟨key, tail, hkey, -, -, rfl⟩ := next_eq_ok_iff.1 h
  have onward := (Payload.take_suffix key.wireType tail).length_le
  exact Nat.lt_of_le_of_lt onward (FieldKey.decode_length_lt hkey)

/-- The payload of a record whose field is laid out as `expected`.  Another wire
    type is reported before anything that is wrong with the payload itself. -/
def content (r : Record) (expected : WireType) : Except DecodeError (Payload expected) :=
  if h : r.wireType = expected then h ▸ r.payload
  else .error (.wireTypeMismatch r.number expected r.wireType)

/-- Passes over a record that no field claims. -/
def skip (r : Record) : Except DecodeError Unit :=
  match r.payload with
  | .ok _ => .ok ()
  | .error e => .error e

/-- Feeds the records of `bytes` to `step`, first to last, until the input ends or
    something fails.  The state reached is returned with a failure, too. -/
def forEach {σ : Type} (step : Record → σ → Except DecodeError Unit × σ) (bytes : Bytes) (s : σ) :
    Except DecodeError Unit × σ :=
  match bytes with
  | [] => (.ok (), s)
  | b :: bs =>
    match _h : next (b :: bs) with
    | (.error e, _) => (.error e, s)
    | (.ok r, rest) =>
      match step r s with
      | (.error e, s) => (.error e, s)
      | (.ok (), s) => forEach step rest s
termination_by bytes.length
decreasing_by exact next_length_lt _h

end Record

end Protobuf
