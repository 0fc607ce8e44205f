import Protobuf.Proofs.Wire.Scalar

/-! # Records are read back

A record that was written is cut off the input as it was written, and a list of them
is met record by record.

* `Record.Spelled`: bytes that are one record, whatever stands behind them.
* `Record.spelled_keyed`: a payload behind its key.
* `Record.applyAll`: records fed to a step until one fails.
* `Record.forEach_flatten`: reading what was written feeds each record in turn.
* `Record.forEach_preserves`: what every step keeps holds after any input.
-/

namespace Protobuf

theorem FieldKey.raw_lt {key : FieldKey} (h : IsFieldNumber key.number) : key.raw < 2 ^ 64 := by
  have hcode : key.wireType.code < 8 := by cases key.wireType <;> decide
  have hnumber : key.number ≤ 2 ^ 29 - 1 := h.2
  unfold raw
  omega

theorem FieldKey.decode_append_raw {key : FieldKey} (h : IsFieldNumber key.number) (rest : Bytes) :
    decode (Varint.encode key.raw ++ rest) = (.ok key, rest) := by
  simp only [decode, Varint.decode_append_encode .w64 (raw_lt h), ofRaw_raw h]

namespace Record

/-! ## One record -/

def Spelled (bytes : Bytes) (r : Record) : Prop :=
  ∀ rest, next (bytes ++ rest) = (.ok r, rest)

theorem Spelled.ne_nil {bytes : Bytes} {r : Record} (h : Spelled bytes r) : bytes ≠ [] := by
  rintro rfl
  have := next_length_lt (h [])
  simp at this

theorem spelled_keyed {number : Nat} {w : WireType} {bytes : Bytes} {p : Payload w}
    (hnumber : IsFieldNumber number) (hgroup : w.isGroup = false)
    (htake : ∀ rest, Payload.take w (bytes ++ rest) = (.ok p, rest)) :
    Spelled (keyed number w bytes) ⟨number, w, .ok p⟩ := by
  intro rest
  have hkey := FieldKey.decode_append_raw
    (show IsFieldNumber (FieldKey.mk number w).number from hnumber) (bytes ++ rest)
  rw [keyed, List.append_assoc]
  refine next_eq_ok_iff.2 ⟨_, _, hkey, by simp [hgroup], ?_, ?_⟩
  · rw [htake]
  · rw [htake]

theorem spelled_scalar {number : Nat} (hnumber : IsFieldNumber number) (k : Scalar) (v : k.Carrier)
    (h : (k.put v).Addressable) :
    Spelled (keyed number k.wireType (k.put v)) ⟨number, k.wireType, .ok (k.toPayload v)⟩ :=
  spelled_keyed hnumber (by cases k <;> rfl) (Scalar.take_payload_append_put k v h)

theorem spelled_delimited {number : Nat} (hnumber : IsFieldNumber number) {bytes : Bytes}
    (h : bytes.Addressable) :
    Spelled (keyed number .delimited (delimit bytes)) ⟨number, .delimited, .ok bytes⟩ :=
  spelled_keyed hnumber rfl (Payload.take_delimited h)

theorem length_payload_le_keyed (number : Nat) (w : WireType) (bytes : Bytes) :
    bytes.length ≤ (keyed number w bytes).length := by
  simp [keyed]

theorem length_keyed_delimit_le {number : Nat} (hnumber : IsFieldNumber number) {bytes : Bytes}
    (h : bytes.Addressable) :
    (keyed number .delimited (delimit bytes)).length ≤ bytes.length + 20 := by
  have hkey := Varint.length_encode_le
    (FieldKey.raw_lt (show IsFieldNumber (FieldKey.mk number .delimited).number from hnumber))
  have hlength := Varint.length_encode_le h
  rw [keyed, delimit, List.length_append, List.length_append]
  omega

@[simp] theorem content_self (number : Nat) (w : WireType)
    (payload : Except DecodeError (Payload w)) :
    content ⟨number, w, payload⟩ w = payload := by
  simp [content]

@[simp] theorem scalar_toPayload (number : Nat) (k : Scalar) (v : k.Carrier) :
    scalar ⟨number, k.wireType, .ok (k.toPayload v)⟩ k = .ok v := by
  simp [scalar, Scalar.ofPayload_toPayload]

/-! ## Many records -/

variable {σ : Type} {step : Record → σ → Except DecodeError Unit × σ}

def applyAll (step : Record → σ → Except DecodeError Unit × σ) :
    List Record → σ → Except DecodeError Unit × σ
  | [], s => (.ok (), s)
  | r :: rest, s =>
    match step r s with
    | (.error e, s) => (.error e, s)
    | (.ok (), s) => applyAll step rest s

@[simp] theorem forEach_nil (s : σ) : forEach step [] s = (.ok (), s) := by
  rw [forEach]

theorem forEach_append {bytes : Bytes} {r : Record} (h : Spelled bytes r) (rest : Bytes) (s : σ) :
    forEach step (bytes ++ rest) s =
      match step r s with
      | (.error e, s) => (.error e, s)
      | (.ok (), s) => forEach step rest s := by
  -- A record is at least one byte, and the reading stops only where no byte is left.
  obtain ⟨b, bs, rfl⟩ := List.exists_cons_of_ne_nil h.ne_nil
  have hnext := h rest
  rw [List.cons_append] at hnext ⊢
  rw [forEach]
  split
  · simp_all
  · rename_i r' rest' heq
    rw [hnext] at heq
    obtain ⟨hr, rfl⟩ := Prod.mk.inj heq
    cases hr
    rfl

theorem forEach_flatten {α : Type} {bytes : α → Bytes} {record : α → Record} (as : List α)
    (h : ∀ a ∈ as, Spelled (bytes a) (record a)) (s : σ) :
    forEach step (as.map bytes).flatten s = applyAll step (as.map record) s := by
  induction as generalizing s with
  | nil => simp [applyAll]
  | cons a as ih =>
    rw [List.map_cons, List.flatten_cons, forEach_append (h a (by simp)), List.map_cons, applyAll]
    split
    · rfl
    · exact ih (fun a' ha' => h a' (by simp [ha'])) _

theorem forEach_preserves {P : σ → Prop} (hstep : ∀ r s, P s → P (step r s).2) (bytes : Bytes)
    {s : σ} (hs : P s) : P (forEach step bytes s).2 := by
  fun_induction forEach step bytes s with
  | case1 s => exact hs
  | case2 s b bs e rest hnext => exact hs
  | case3 s b bs r rest hnext e s' hfail =>
    have := hstep r s hs
    rwa [hfail] at this
  | case4 s b bs r rest hnext s' hok ih =>
    have := hstep r s hs
    rw [hok] at this
    exact ih this

theorem forEach_preserves_of_ok {P : σ → Prop}
    (hstep : ∀ r s s', P s → step r s = (.ok (), s') → P s') (bytes : Bytes) {s s' : σ} (hs : P s)
    (hok : forEach step bytes s = (.ok (), s')) : P s' := by
  fun_induction forEach step bytes s with
  | case1 s => cases hok; exact hs
  | case2 s b bs e rest hnext => cases hok
  | case3 s b bs r rest hnext e s₁ hfail => cases hok
  | case4 s b bs r rest hnext s₁ hone ih => exact ih (hstep r s s₁ hs hone) hok

end Record

end Protobuf
