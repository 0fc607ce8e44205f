import Protobuf.Proofs.Wire.Record

/-! # Readers stop where they have read enough

What a reader has found does not change when more bytes come behind the input, and those
bytes are left as they are.  A length prefix is measured against what follows it, so this is
so of what was read well only: what was cut off may go on in the bytes behind.

* `Varint.decodeWithin_append`, `FieldKey.decode_append`, `Payload.take_append`: the parts
  of a record.
* `Record.next_append`: a whole record.
* `Record.forEach_append_of_ok`: records behind records.
-/

namespace Protobuf

theorem Varint.decodeWithin_append {w : Width} {left : Nat} {bytes rest : Bytes} {n : Nat}
    (h : decodeWithin w left bytes = (.ok n, rest)) (more : Bytes) :
    decodeWithin w left (bytes ++ more) = (.ok n, rest ++ more) := by
  induction left generalizing bytes n with
  | zero => cases h
  | succ left ih =>
    obtain ⟨b, tail, rfl, hfits, hcase⟩ := decodeWithin_eq_ok_iff.1 h
    refine decodeWithin_eq_ok_iff.2 ⟨b, tail ++ more, rfl, hfits, ?_⟩
    rcases hcase with ⟨hlast, rfl, rfl⟩ | ⟨hmore, high, hhigh, rfl⟩
    · exact .inl ⟨hlast, rfl, rfl⟩
    · exact .inr ⟨hmore, high, ih hhigh, rfl⟩

theorem Varint.decode_append {w : Width} {bytes rest : Bytes} {n : Nat}
    (h : decode w bytes = (.ok n, rest)) (more : Bytes) :
    decode w (bytes ++ more) = (.ok n, rest ++ more) :=
  decodeWithin_append h more

theorem FieldKey.decode_append {bytes rest : Bytes} {key : FieldKey}
    (h : decode bytes = (.ok key, rest)) (more : Bytes) :
    decode (bytes ++ more) = (.ok key, rest ++ more) := by
  obtain ⟨raw, hraw, hkey⟩ := decode_eq_ok_iff.1 h
  exact decode_eq_ok_iff.2 ⟨raw, Varint.decode_append hraw more, hkey⟩

theorem Bytes.split?_append_of_eq_some {count : Nat} {bytes front rest : Bytes}
    (h : split? count bytes = some (front, rest)) (more : Bytes) :
    split? count (bytes ++ more) = some (front, rest ++ more) := by
  obtain ⟨rfl, rfl⟩ := split?_eq_some h
  rw [List.append_assoc, split?_append]

theorem decodeLength_append {bytes rest : Bytes} {length : Nat}
    (h : decodeLength bytes = (.ok length, rest)) (more : Bytes) :
    decodeLength (bytes ++ more) = (.ok length, rest ++ more) := by
  obtain ⟨hread, hle⟩ := decodeLength_eq_ok_iff.1 h
  refine decodeLength_eq_ok_iff.2 ⟨Varint.decode_append hread more, ?_⟩
  rw [List.length_append]
  omega

theorem Payload.take_append {w : WireType} {bytes rest : Bytes} {p : Payload w}
    (h : take w bytes = (.ok p, rest)) (more : Bytes) :
    take w (bytes ++ more) = (.ok p, rest ++ more) := by
  cases w with
  | varint =>
    rw [take] at h ⊢
    split at h
    · rename_i n tail hn
      cases h
      rw [Varint.decode_append hn]
    · simp at h
  | fixed64 =>
    rw [take] at h ⊢
    split at h
    · rename_i word tail hword
      cases h
      rw [Bytes.split?_append_of_eq_some hword]
    · simp at h
  | delimited =>
    rw [take] at h ⊢
    split at h
    · rename_i length tail hlength
      cases h
      have hroom := (decodeLength_eq_ok_iff.1 hlength).2
      rw [decodeLength_append hlength]
      simp only [List.take_append_of_le_length hroom, List.drop_append_of_le_length hroom]
    · simp at h
  | fixed32 =>
    rw [take] at h ⊢
    split at h
    · rename_i word tail hword
      cases h
      rw [Bytes.split?_append_of_eq_some hword]
    · simp at h
  | startGroup => simp [take] at h
  | endGroup => simp [take] at h

/-! ## Records -/

namespace Record

def Complete (r : Record) : Prop := ∃ p, r.payload = .ok p

/-- A record whose payload is all there is met in the same way with more behind it. -/
theorem next_append {bytes rest : Bytes} {r : Record} (h : next bytes = (.ok r, rest))
    (complete : r.Complete) (more : Bytes) : next (bytes ++ more) = (.ok r, rest ++ more) := by
  obtain ⟨p, hp⟩ := complete
  obtain ⟨key, tail, hkey, hgroup, rfl, rfl⟩ := next_eq_ok_iff.1 h
  have htake : Payload.take key.wireType tail = (.ok p, (Payload.take key.wireType tail).2) :=
    Prod.ext hp rfl
  have happend := Payload.take_append htake more
  refine next_eq_ok_iff.2 ⟨key, tail ++ more, FieldKey.decode_append hkey more, hgroup, ?_, ?_⟩
  · rw [happend, htake]
  · rw [happend]

variable {σ : Type} {step : Record → σ → Except DecodeError Unit × σ}

theorem forEach_of_next {b : UInt8} {bs rest : Bytes} {r : Record}
    (h : next (b :: bs) = (.ok r, rest)) (s : σ) :
    forEach step (b :: bs) s =
      match step r s with
      | (.error e, s) => (.error e, s)
      | (.ok (), s) => forEach step rest s := by
  rw [forEach]
  split
  · rename_i hfail
    rw [h] at hfail
    cases hfail
  · rename_i r' rest' hmet
    rw [h] at hmet
    cases hmet
    rfl

theorem forEach_of_next_error {b : UInt8} {bs rest : Bytes} {e : DecodeError}
    (h : next (b :: bs) = (.error e, rest)) (s : σ) :
    forEach step (b :: bs) s = (.error e, s) := by
  rw [forEach]
  split
  · rename_i hfail
    rw [h] at hfail
    cases hfail
    rfl
  · rename_i hmet
    rw [h] at hmet
    cases hmet

/-- Records behind records that were read are read from where those led, if `step` takes no
    record whose payload is cut off. -/
theorem forEach_append_of_ok
    (complete : ∀ r s s', step r s = (.ok (), s') → r.Complete) {bytes : Bytes} {s s' : σ}
    (h : forEach step bytes s = (.ok (), s')) (more : Bytes) :
    forEach step (bytes ++ more) s = forEach step more s' := by
  fun_induction forEach step bytes s with
  | case1 s =>
    cases h
    rfl
  | case2 s b bs e rest hnext => cases h
  | case3 s b bs r rest hnext e s₁ hfail => cases h
  | case4 s b bs r rest hnext s₁ hone ih =>
    have hmore := next_append hnext (complete r s s₁ hone) more
    rw [← ih h]
    rw [List.cons_append] at hmore ⊢
    rw [forEach_of_next hmore, hone]

/-- Whether records are read to the end depends on them alone, if so it is for each. -/
theorem forEach_outcome {P : σ → Prop} (keep : ∀ r s, P s → P (step r s).2)
    (same : ∀ r s s', P s → P s' → (step r s).1 = (step r s').1) (bytes : Bytes) {s s' : σ}
    (hs : P s) (hs' : P s') : (forEach step bytes s).1 = (forEach step bytes s').1 := by
  fun_induction forEach step bytes s generalizing s' with
  | case1 s => rw [forEach_nil]
  | case2 s b bs e rest hnext => rw [forEach_of_next_error hnext]
  | case3 s b bs r rest hnext e s₁ hfail =>
    have hsame := same r s s' hs hs'
    rw [forEach_of_next hnext]
    split <;> rename_i hstep <;> rw [hfail, hstep] at hsame <;> cases hsame
    rfl
  | case4 s b bs r rest hnext s₁ hone ih =>
    have hsame := same r s s' hs hs'
    have hkeep := keep r s hs
    have hkeep' := keep r s' hs'
    rw [hone] at hkeep
    rw [forEach_of_next hnext]
    split <;> rename_i hstep <;> rw [hone, hstep] at hsame <;> cases hsame
    rw [hstep] at hkeep'
    exact ih hkeep hkeep'

end Record

end Protobuf
