import Protobuf.Error

/-! # Base-128 varints

An integer is written in groups of seven bits, lowest group first; every byte but
the last carries the continuation bit.  Writing is always the shortest form.
Reading accepts padded forms too, up to the number of bytes that its width can
need, and refuses a last byte whose bits would not fit.

* `encode` and `size`: the shortest form and its length.
* `decode`: the value and the bytes left, which a failed read reports as well.
* `ZigZag`: signed integers ordered by magnitude, so that small ones stay short.
-/

namespace Protobuf

abbrev Bytes := List UInt8

namespace Varint

/-! ## Widths -/

inductive Width
  | w32
  | w64
deriving DecidableEq, Repr

def Width.bits : Width → Nat
  | .w32 => 32
  | .w64 => 64

/-- The most bytes a varint of this width may span. -/
def Width.maxBytes : Width → Nat
  | .w32 => 5
  | .w64 => 10

/-- The greatest value of the last of those bytes: only the bits that are left
    over may be set, and nothing may follow. -/
def Width.lastByteMax : Width → Nat
  | .w32 => 15
  | .w64 => 1

/-! ## Writing -/

def groups : (more : Nat) → Nat → Bytes
  | 0, n => [UInt8.ofNat n]
  | more + 1, n => UInt8.ofNat (n % 128 + 128) :: groups more (n / 128)

/-- The number of bytes of the shortest form: one for each seven significant
    bits, and one for zero. -/
def size (n : Nat) : Nat := n.log2 / 7 + 1

def encode (n : Nat) : Bytes := groups (n.log2 / 7) n

/-! ## Reading -/

/-- Reads with at most `left` bytes to go.  The byte that decides a failure is
    consumed. -/
def decodeWithin (w : Width) : (left : Nat) → Bytes → Except DecodeError Nat × Bytes
  | 0, bytes => (.error .invalidVarint, bytes)
  | _ + 1, [] => (.error .unexpectedEnd, [])
  | left + 1, b :: rest =>
    if left = 0 ∧ w.lastByteMax < b.toNat then (.error .invalidVarint, rest)
    else if b.toNat < 128 then (.ok b.toNat, rest)
    else
      match decodeWithin w left rest with
      | (.ok high, rest) => (.ok (b.toNat - 128 + 128 * high), rest)
      | (.error e, rest) => (.error e, rest)

def decode (w : Width) (bytes : Bytes) : Except DecodeError Nat × Bytes :=
  decodeWithin w w.maxBytes bytes

/-- A read leaves an end of the bytes that it was given. -/
theorem decodeWithin_suffix (w : Width) (left : Nat) (bytes : Bytes) :
    (decodeWithin w left bytes).2 <:+ bytes := by
  induction left generalizing bytes with
  | zero => exact List.suffix_refl _
  | succ left ih =>
    cases bytes with
    | nil => exact List.suffix_refl _
    | cons b rest =>
      have tail : rest <:+ b :: rest := List.suffix_cons b rest
      have deeper := (ih rest).trans tail
      rw [decodeWithin]
      split
      · exact tail
      · split
        · exact tail
        · split <;> simp_all

/-- What a byte of a varint that is read adds to those behind it. -/
theorem decodeWithin_eq_ok_iff {w : Width} {left : Nat} {bytes rest : Bytes} {n : Nat} :
    decodeWithin w (left + 1) bytes = (.ok n, rest) ↔
      ∃ b tail, bytes = b :: tail ∧ ¬(left = 0 ∧ w.lastByteMax < b.toNat) ∧
        (b.toNat < 128 ∧ n = b.toNat ∧ rest = tail ∨
          128 ≤ b.toNat ∧ ∃ high, decodeWithin w left tail = (.ok high, rest) ∧
            n = b.toNat - 128 + 128 * high) := by
  constructor
  · intro h
    cases bytes with
    | nil => cases h
    | cons b tail =>
      refine ⟨b, tail, rfl, ?_⟩
      rw [decodeWithin] at h
      split at h
      · cases h
      · rename_i hfits
        refine ⟨hfits, ?_⟩
        split at h
        · rename_i hlast
          cases h
          exact .inl ⟨hlast, rfl, rfl⟩
        · rename_i hmore
          split at h
          · rename_i high tail' hhigh
            cases h
            exact .inr ⟨Nat.not_lt.1 hmore, high, hhigh, rfl⟩
          · cases h
  · rintro ⟨b, tail, rfl, hfits, hcase⟩
    rw [decodeWithin, if_neg hfits]
    rcases hcase with ⟨hlast, rfl, rfl⟩ | ⟨hmore, high, hhigh, rfl⟩
    · rw [if_pos hlast]
    · rw [if_neg (Nat.not_lt.2 hmore), hhigh]

/-- A read that succeeds has consumed at least one byte. -/
theorem decodeWithin_length_lt {w : Width} {left : Nat} {bytes rest : Bytes} {n : Nat}
    (h : decodeWithin w left bytes = (.ok n, rest)) : rest.length < bytes.length := by
  cases left with
  | zero => cases h
  | succ left =>
    obtain ⟨b, tail, rfl, -, ⟨-, -, rfl⟩ | ⟨-, high, hhigh, -⟩⟩ := decodeWithin_eq_ok_iff.1 h
    · exact Nat.lt_succ_self _
    · have onward := (decodeWithin_suffix w left tail).length_le
      rw [hhigh] at onward
      exact Nat.lt_succ_of_le onward

theorem decode_suffix (w : Width) (bytes : Bytes) : (decode w bytes).2 <:+ bytes :=
  decodeWithin_suffix w _ bytes

theorem decode_length_lt {w : Width} {bytes rest : Bytes} {n : Nat}
    (h : decode w bytes = (.ok n, rest)) : rest.length < bytes.length :=
  decodeWithin_length_lt h

end Varint

/-! ## Signed integers of small magnitude -/

namespace ZigZag

/-- 0, -1, 1, -2, 2, … become 0, 1, 2, 3, 4, …: twice the magnitude, less one for
    a negative integer. -/
def encode : Int → Nat
  | .ofNat n => 2 * n
  | .negSucc n => 2 * n + 1

def decode (n : Nat) : Int :=
  if n % 2 = 0 then .ofNat (n / 2) else .negSucc (n / 2)

theorem decode_encode (n : Int) : decode (encode n) = n := by
  cases n with
  | ofNat n => simp [encode, decode]
  | negSucc n =>
    have h1 : (2 * n + 1) % 2 = 1 := by omega
    have h2 : (2 * n + 1) / 2 = n := by omega
    simp [encode, decode, h1, h2]

/-- Every place of the enumeration is taken. -/
theorem encode_decode (n : Nat) : encode (decode n) = n := by
  unfold decode
  split <;> simp only [encode] <;> omega

end ZigZag

end Protobuf
