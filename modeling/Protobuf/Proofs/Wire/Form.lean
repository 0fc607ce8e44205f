import Protobuf.Proofs.Wire.Boundary

/-! # The form of records

Which bytes are a record, told without reading them.  Integers need not be in their
shortest form: high groups may be empty, as long as the form is no longer than the
widest integer needs.  The reader cuts off exactly the bytes that have the form.

* `Varint.Groups`, `Varint.Spells`: the forms of an integer.
* `Payload.Spells`: the forms of a payload.
* `Record.Formed`: the forms of a record.
* `Record.formed_iff`: a form is what the reader cuts off, whatever stands behind it.
* `Record.Series`: records one after the other.
-/

namespace Protobuf

namespace Varint

/-- Groups of seven bits, lowest first, all but the last with the continuation bit. -/
inductive Groups : Bytes → Nat → Prop
  | last {b : UInt8} (ends : b.toNat < 128) : Groups [b] b.toNat
  | more {b : UInt8} {bytes : Bytes} {high : Nat} (goesOn : 128 ≤ b.toNat)
    (further : Groups bytes high) : Groups (b :: bytes) (b.toNat - 128 + 128 * high)

/-- The forms of a 64-bit integer. -/
structure Spells (bytes : Bytes) (n : Nat) : Prop where
  groups : Groups bytes n
  length : bytes.length ≤ 10
  fits : n < 2 ^ 64

theorem Groups.length_pos {bytes : Bytes} {n : Nat} (h : Groups bytes n) : 0 < bytes.length := by
  cases h <;> simp

/-- Groups for which there is room are read, if those above the room are empty. -/
theorem Groups.decodeWithin {bytes : Bytes} {n : Nat} (h : Groups bytes n) {left : Nat}
    (room : bytes.length ≤ left + 1) (fits : n < 2 * 128 ^ left) (rest : Bytes) :
    decodeWithin .w64 (left + 1) (bytes ++ rest) = (.ok n, rest) := by
  induction h generalizing left with
  | @last b ends =>
    have hfits : ¬(left = 0 ∧ Width.w64.lastByteMax < b.toNat) := by
      rintro ⟨rfl, hlt⟩
      simp only [Width.lastByteMax] at hlt
      omega
    rw [List.singleton_append, Varint.decodeWithin, if_neg hfits, if_pos ends]
  | @more b bytes high goesOn further ih =>
    have := further.length_pos
    rw [List.length_cons] at room
    obtain ⟨left, rfl⟩ : ∃ l, left = l + 1 := ⟨left - 1, by omega⟩
    have hhigh : high < 2 * 128 ^ left := by
      rw [Nat.pow_succ] at fits
      omega
    rw [List.cons_append, Varint.decodeWithin, if_neg (by omega), if_neg (by omega),
      ih (by omega) hhigh]

/-- What was read is in one of the forms. -/
theorem groups_of_decodeWithin {w : Width} {left : Nat} {bytes rest : Bytes} {n : Nat}
    (h : decodeWithin w left bytes = (.ok n, rest)) :
    ∃ front, bytes = front ++ rest ∧ Groups front n ∧ front.length ≤ left := by
  induction left generalizing bytes n with
  | zero => cases h
  | succ left ih =>
    obtain ⟨b, tail, rfl, -, ⟨hlast, rfl, rfl⟩ | ⟨hmore, high, hhigh, rfl⟩⟩ :=
      decodeWithin_eq_ok_iff.1 h
    · exact ⟨[b], rfl, .last hlast, by simp⟩
    · obtain ⟨front, rfl, groups, length⟩ := ih hhigh
      exact ⟨b :: front, rfl, .more hmore groups, by simpa using length⟩

theorem Spells.decode {bytes : Bytes} {n : Nat} (h : Spells bytes n) (rest : Bytes) :
    decode .w64 (bytes ++ rest) = (.ok n, rest) :=
  h.groups.decodeWithin h.length (by have := h.fits; omega) rest

theorem spells_of_decode {bytes rest : Bytes} {n : Nat} (h : decode .w64 bytes = (.ok n, rest)) :
    ∃ front, bytes = front ++ rest ∧ Spells front n := by
  obtain ⟨front, rfl, groups, length⟩ := groups_of_decodeWithin h
  exact ⟨front, rfl, groups, length, decode_lt h⟩

/-- The shortest form is one of them. -/
theorem spells_encode {n : Nat} (h : n < 2 ^ 64) : Spells (encode n) n := by
  have hdecode := decode_append_encode .w64 h []
  obtain ⟨front, hfront, spelled⟩ := spells_of_decode hdecode
  simp only [List.append_nil] at hfront
  rwa [hfront]

end Varint

/-! ## Payloads -/

inductive Payload.Spells : (w : WireType) → Bytes → Payload w → Prop
  | varint {bytes : Bytes} {n : Nat} (spelled : Varint.Spells bytes n) :
    Spells .varint bytes (UInt64.ofNat n)
  | fixed64 {bytes : Bytes} (length : bytes.length = 8) :
    Spells .fixed64 bytes (UInt64.ofNat bytes.toNat)
  | delimited {size content : Bytes} (spelled : Varint.Spells size content.length) :
    Spells .delimited (size ++ content) content
  | fixed32 {bytes : Bytes} (length : bytes.length = 4) :
    Spells .fixed32 bytes (UInt32.ofNat bytes.toNat)

namespace Payload

theorem Spells.isGroup {w : WireType} {bytes : Bytes} {p : Payload w} (h : Spells w bytes p) :
    w.isGroup = false := by
  cases h <;> rfl

theorem Spells.take {w : WireType} {bytes : Bytes} {p : Payload w} (h : Spells w bytes p)
    (rest : Bytes) : take w (bytes ++ rest) = (.ok p, rest) := by
  cases h with
  | varint spelled => simp only [Payload.take, spelled.decode]
  | fixed64 length =>
    have hsplit := Bytes.split?_append bytes rest
    rw [length] at hsplit
    simp only [Payload.take, hsplit]
  | @delimited size content spelled =>
    have hlength : decodeLength (size ++ (content ++ rest)) = (.ok content.length, content ++ rest) :=
      decodeLength_eq_ok_iff.2 ⟨spelled.decode _, by simp⟩
    rw [Payload.take, List.append_assoc, hlength]
    simp
  | fixed32 length =>
    have hsplit := Bytes.split?_append bytes rest
    rw [length] at hsplit
    simp only [Payload.take, hsplit]

theorem spells_of_take {w : WireType} {bytes rest : Bytes} {p : Payload w}
    (h : Payload.take w bytes = (.ok p, rest)) : ∃ front, bytes = front ++ rest ∧ Spells w front p := by
  cases w with
  | varint =>
    rw [Payload.take] at h
    split at h
    · rename_i n tail hn
      cases h
      obtain ⟨front, rfl, spelled⟩ := Varint.spells_of_decode hn
      exact ⟨front, rfl, .varint spelled⟩
    · simp at h
  | fixed64 =>
    rw [Payload.take] at h
    split at h
    · rename_i word tail hword
      cases h
      obtain ⟨rfl, length⟩ := Bytes.split?_eq_some hword
      exact ⟨word, rfl, .fixed64 length⟩
    · simp at h
  | delimited =>
    rw [Payload.take] at h
    split at h
    · rename_i length tail hlength
      cases h
      obtain ⟨hread, hle⟩ := decodeLength_eq_ok_iff.1 hlength
      obtain ⟨size, rfl, spelled⟩ := Varint.spells_of_decode hread
      rw [← List.length_take_of_le hle] at spelled
      refine ⟨size ++ tail.take length, ?_, .delimited spelled⟩
      rw [List.append_assoc, List.take_append_drop]
    · simp at h
  | fixed32 =>
    rw [Payload.take] at h
    split at h
    · rename_i word tail hword
      cases h
      obtain ⟨rfl, length⟩ := Bytes.split?_eq_some hword
      exact ⟨word, rfl, .fixed32 length⟩
    · simp at h
  | startGroup => simp [Payload.take] at h
  | endGroup => simp [Payload.take] at h

end Payload

/-! ## Records -/

theorem WireType.code_of_ofCode {code : Nat} {w : WireType} (h : ofCode code = .ok w) :
    w.code = code := by
  unfold ofCode at h
  split at h <;> cases h <;> rfl

theorem FieldKey.raw_of_ofRaw {raw : Nat} {key : FieldKey} (h : ofRaw raw = .ok key) :
    IsFieldNumber key.number ∧ key.raw = raw := by
  rw [ofRaw] at h
  split at h
  · cases h
  · rename_i w hw
    split at h
    · rename_i isNumber
      cases h
      have hcode := WireType.code_of_ofCode hw
      refine ⟨isNumber, ?_⟩
      rw [FieldKey.raw]
      simp only [hcode]
      omega
    · cases h

namespace Record

/-- The forms of a record: a key for a number that a field may have, and a payload. -/
inductive Formed : Bytes → Record → Prop
  | intro {number : Nat} {w : WireType} {key payload : Bytes} {p : Payload w}
    (isNumber : IsFieldNumber number) (keySpelled : Varint.Spells key (FieldKey.raw ⟨number, w⟩))
    (payloadSpelled : Payload.Spells w payload p) : Formed (key ++ payload) ⟨number, w, .ok p⟩

theorem Formed.complete {bytes : Bytes} {r : Record} (h : Formed bytes r) : r.Complete := by
  cases h
  exact ⟨_, rfl⟩

theorem Formed.spelled {bytes : Bytes} {r : Record} (h : Formed bytes r) : Spelled bytes r := by
  cases h with
  | @intro number w key payload p isNumber keySpelled payloadSpelled =>
    intro rest
    have hraw : FieldKey.ofRaw (FieldKey.raw ⟨number, w⟩) = .ok ⟨number, w⟩ :=
      FieldKey.ofRaw_raw isNumber
    have hkey : FieldKey.decode (key ++ (payload ++ rest)) = (.ok ⟨number, w⟩, payload ++ rest) :=
      FieldKey.decode_eq_ok_iff.2 ⟨_, keySpelled.decode _, hraw⟩
    rw [List.append_assoc]
    refine next_eq_ok_iff.2 ⟨_, _, hkey, by simp [payloadSpelled.isGroup], ?_, ?_⟩
    · rw [payloadSpelled.take]
    · rw [payloadSpelled.take]

theorem formed_of_next {bytes rest : Bytes} {r : Record} (h : next bytes = (.ok r, rest))
    (complete : r.Complete) : ∃ front, bytes = front ++ rest ∧ Formed front r := by
  obtain ⟨p, hp⟩ := complete
  obtain ⟨key, tail, hkey, -, rfl, rfl⟩ := next_eq_ok_iff.1 h
  obtain ⟨raw, hraw, hofRaw⟩ := FieldKey.decode_eq_ok_iff.1 hkey
  obtain ⟨isNumber, rfl⟩ := FieldKey.raw_of_ofRaw hofRaw
  obtain ⟨front, rfl, keySpelled⟩ := Varint.spells_of_decode hraw
  have htake : Payload.take key.wireType tail = (.ok p, (Payload.take key.wireType tail).2) :=
    Prod.ext hp rfl
  obtain ⟨payload, htail, payloadSpelled⟩ := Payload.spells_of_take htake
  refine ⟨front ++ payload, ?_, ?_⟩
  · rw [List.append_assoc, ← htail]
  · rw [htake]
    exact .intro isNumber keySpelled payloadSpelled

/-- A form is what the reader cuts off, whatever stands behind it. -/
theorem formed_iff {bytes : Bytes} {r : Record} :
    Formed bytes r ↔ Spelled bytes r ∧ r.Complete := by
  constructor
  · intro h
    exact ⟨h.spelled, h.complete⟩
  · rintro ⟨spelled, complete⟩
    obtain ⟨front, hfront, formed⟩ := formed_of_next (spelled []) complete
    simp only [List.append_nil] at hfront
    rwa [hfront]

/-- A payload behind the shortest form of its key. -/
theorem formed_keyed {number : Nat} (isNumber : IsFieldNumber number) {w : WireType}
    {payload : Bytes} {p : Payload w} (spelled : Payload.Spells w payload p) :
    Formed (keyed number w payload) ⟨number, w, .ok p⟩ := by
  have small := FieldKey.raw_lt (show IsFieldNumber (FieldKey.mk number w).number from isNumber)
  exact .intro isNumber (Varint.spells_encode small) spelled

theorem formed_delimited {number : Nat} (isNumber : IsFieldNumber number) {content : Bytes}
    (h : content.Addressable) :
    Formed (keyed number .delimited (delimit content)) ⟨number, .delimited, .ok content⟩ :=
  formed_keyed isNumber (.delimited (Varint.spells_encode h))

inductive Series : Bytes → Prop
  | nil : Series []
  | cons {front rest : Bytes} {r : Record} (formed : Formed front r) (further : Series rest) :
    Series (front ++ rest)

end Record

end Protobuf
