import Protobuf.Proofs.Wire.Varint

/-! # Which bytes a varint is read from

What reading does is decided by the bytes in front that have the continuation bit: by how
many there are, and by the byte behind them.

* `Varint.continuing`, `Varint.groupsValue`: the bytes in front, and what groups spell.
* `Varint.Ends`, `Varint.BreaksOff`: a varint of a width ends, or the bytes end before it does.
* `Varint.decode_of_ends`, `decode_of_breaksOff`, `decode_of_overlong`: what is read in each case.
* `Varint.size_le_of_decode`: no form of an integer is shorter than the one that is written.
-/

namespace Protobuf.Varint

def continuing (bytes : Bytes) : Nat := (bytes.takeWhile fun b => 128 ≤ b.toNat).length

/-- What groups of seven bits spell, lowest group first, whatever their continuation bits are. -/
def groupsValue : Bytes → Nat
  | [] => 0
  | b :: rest => b.toNat % 128 + 128 * groupsValue rest

/-- Behind the bytes with the continuation bit there is one without it, and the width has room
    for it: it is not the last byte that the width allows, or its bits fit. -/
def Ends (w : Width) (bytes : Bytes) : Prop :=
  ∃ b, bytes[continuing bytes]? = some b ∧ (continuing bytes + 1 < w.maxBytes ∨
    continuing bytes + 1 = w.maxBytes ∧ b.toNat ≤ w.lastByteMax)

/-- All bytes have the continuation bit, and the width has room for more of them. -/
def BreaksOff (w : Width) (bytes : Bytes) : Prop :=
  continuing bytes = bytes.length ∧ bytes.length < w.maxBytes

variable {w : Width} {b : UInt8} {rest bytes : Bytes} {left : Nat}

theorem continuing_cons_last (h : b.toNat < 128) : continuing (b :: rest) = 0 := by
  rw [continuing, List.takeWhile_cons_of_neg (by simpa using h), List.length_nil]

theorem continuing_cons_more (h : ¬b.toNat < 128) :
    continuing (b :: rest) = continuing rest + 1 := by
  rw [continuing, List.takeWhile_cons_of_pos (by simpa using h), List.length_cons, continuing]

/-- `m` groups spell less than `128 ^ m`. -/
theorem groupsValue_lt (bytes : Bytes) : groupsValue bytes < 128 ^ bytes.length := by
  induction bytes with
  | nil => exact Nat.one_pos
  | cons b rest ih =>
    rw [groupsValue, List.length_cons, Nat.pow_succ]
    omega

/-! ## What is read -/

theorem decodeWithin_of_ends (hb : bytes[continuing bytes]? = some b)
    (room : continuing bytes + 1 < left ∨ continuing bytes + 1 = left ∧ b.toNat ≤ w.lastByteMax) :
    decodeWithin w left bytes = (.ok (groupsValue (bytes.take (continuing bytes + 1))),
      bytes.drop (continuing bytes + 1)) := by
  induction bytes generalizing left with
  | nil => simp [continuing] at hb
  | cons first rest ih =>
    obtain ⟨left, rfl⟩ : ∃ l, left = l + 1 := ⟨left - 1, by omega⟩
    by_cases hfirst : first.toNat < 128
    · -- The first byte ends the varint.
      rw [continuing_cons_last hfirst] at hb room ⊢
      cases hb
      rw [decodeWithin, if_neg (by omega), if_pos hfirst]
      simp [groupsValue, Nat.mod_eq_of_lt hfirst]
    · rw [continuing_cons_more hfirst] at hb room ⊢
      rw [List.getElem?_cons_succ] at hb
      have hrest : decodeWithin w left rest = _ := ih hb (by omega)
      have hbyte : first.toNat % 128 = first.toNat - 128 := by
        have := first.toNat_lt
        omega
      rw [decodeWithin, if_neg (by omega), if_neg hfirst, hrest]
      simp [groupsValue, hbyte]

theorem decodeWithin_of_breaksOff (all : continuing bytes = bytes.length)
    (room : bytes.length < left) : decodeWithin w left bytes = (.error .unexpectedEnd, []) := by
  induction bytes generalizing left with
  | nil =>
    obtain ⟨left, rfl⟩ : ∃ l, left = l + 1 := ⟨left - 1, by omega⟩
    rw [decodeWithin]
  | cons first rest ih =>
    obtain ⟨left, rfl⟩ : ∃ l, left = l + 1 := ⟨left - 1, by omega⟩
    by_cases hfirst : first.toNat < 128
    · rw [continuing_cons_last hfirst] at all
      cases all
    · rw [continuing_cons_more hfirst, List.length_cons] at all
      rw [List.length_cons] at room
      have hrest : decodeWithin w left rest = _ := ih (by omega) (by omega)
      rw [decodeWithin, if_neg (by omega), if_neg hfirst, hrest]

/-- If neither is so, then a byte has been met that the width does not allow, or as many bytes as
    it allows without an end. -/
theorem decodeWithin_of_overlong
    (goesOn : ∀ b, bytes[continuing bytes]? = some b →
      left ≤ continuing bytes ∨ left = continuing bytes + 1 ∧ w.lastByteMax < b.toNat)
    (long : continuing bytes = bytes.length → left ≤ bytes.length) :
    left ≤ bytes.length ∧ decodeWithin w left bytes = (.error .invalidVarint, bytes.drop left) := by
  induction bytes generalizing left with
  | nil =>
    have hleft : left = 0 := Nat.le_zero.1 (long rfl)
    subst hleft
    exact ⟨Nat.le_refl 0, rfl⟩
  | cons first rest ih =>
    cases left with
    | zero => exact ⟨Nat.zero_le _, rfl⟩
    | succ left =>
      by_cases hfirst : first.toNat < 128
      · -- The first byte is the last one that the width allows, and it is overfull.
        rw [continuing_cons_last hfirst] at goesOn
        obtain hle | ⟨hleft, hmax⟩ := goesOn first rfl
        · omega
        · have hzero : left = 0 := by omega
          subst hzero
          rw [decodeWithin, if_pos ⟨rfl, hmax⟩]
          exact ⟨by simp, rfl⟩
      · rw [continuing_cons_more hfirst, List.length_cons] at long
        have hrest : left ≤ rest.length ∧
            decodeWithin w left rest = (.error .invalidVarint, rest.drop left) := by
          apply ih
          · intro b hb
            have := goesOn b (by rwa [continuing_cons_more hfirst, List.getElem?_cons_succ])
            rw [continuing_cons_more hfirst] at this
            omega
          · omega
        refine ⟨Nat.succ_le_succ hrest.1, ?_⟩
        by_cases hleft : left = 0
        · have hmax := w.lastByteMax_lt
          rw [decodeWithin, if_pos ⟨hleft, by omega⟩, hleft]
          rfl
        · rw [decodeWithin, if_neg (by omega), if_neg hfirst, hrest.2]
          rfl

theorem decode_of_ends (h : Ends w bytes) :
    decode w bytes = (.ok (groupsValue (bytes.take (continuing bytes + 1))),
      bytes.drop (continuing bytes + 1)) := by
  obtain ⟨b, hb, room⟩ := h
  exact decodeWithin_of_ends hb room

theorem decode_of_breaksOff (h : BreaksOff w bytes) :
    decode w bytes = (.error .unexpectedEnd, []) :=
  decodeWithin_of_breaksOff h.1 h.2

theorem decode_of_overlong (goesOn : ¬Ends w bytes) (long : ¬BreaksOff w bytes) :
    w.maxBytes ≤ bytes.length ∧
      decode w bytes = (.error .invalidVarint, bytes.drop w.maxBytes) := by
  apply decodeWithin_of_overlong
  · intro b hb
    have hroom : ¬(continuing bytes + 1 < w.maxBytes ∨
        continuing bytes + 1 = w.maxBytes ∧ b.toNat ≤ w.lastByteMax) :=
      fun room => goesOn ⟨b, hb, room⟩
    omega
  · intro hall
    have hroom : ¬bytes.length < w.maxBytes := fun room => long ⟨hall, room⟩
    omega

/-- A varint ends, or breaks off, or is invalid. -/
theorem decode_cases (w : Width) (bytes : Bytes) :
    (Ends w bytes ∧ decode w bytes = (.ok (groupsValue (bytes.take (continuing bytes + 1))),
        bytes.drop (continuing bytes + 1))) ∨
      (BreaksOff w bytes ∧ decode w bytes = (.error .unexpectedEnd, [])) ∨
      decode w bytes = (.error .invalidVarint, bytes.drop w.maxBytes) := by
  by_cases hends : Ends w bytes
  · exact .inl ⟨hends, decode_of_ends hends⟩
  · by_cases hbreaks : BreaksOff w bytes
    · exact .inr (.inl ⟨hbreaks, decode_of_breaksOff hbreaks⟩)
    · exact .inr (.inr (decode_of_overlong hends hbreaks).2)

theorem decode_eq_ok_iff {n : Nat} :
    decode w bytes = (.ok n, rest) ↔ Ends w bytes ∧
      n = groupsValue (bytes.take (continuing bytes + 1)) ∧
      rest = bytes.drop (continuing bytes + 1) := by
  constructor
  · intro h
    obtain ⟨hends, heq⟩ | ⟨-, heq⟩ | heq := decode_cases w bytes
    all_goals
      rw [heq] at h
      cases h
    exact ⟨hends, rfl, rfl⟩
  · rintro ⟨hends, rfl, rfl⟩
    exact decode_of_ends hends

theorem decode_eq_unexpectedEnd_iff :
    decode w bytes = (.error .unexpectedEnd, rest) ↔ BreaksOff w bytes ∧ rest = [] := by
  constructor
  · intro h
    obtain ⟨-, heq⟩ | ⟨hbreaks, heq⟩ | heq := decode_cases w bytes
    all_goals
      rw [heq] at h
      cases h
    exact ⟨hbreaks, rfl⟩
  · rintro ⟨hbreaks, rfl⟩
    exact decode_of_breaksOff hbreaks

/-! ## Lengths -/

theorem Ends.continuing_lt (h : Ends w bytes) : continuing bytes < bytes.length := by
  obtain ⟨b, hb, -⟩ := h
  exact (List.getElem?_eq_some_iff.1 hb).1

theorem size_eq_length_encode (n : Nat) : (encode n).length = size n := by
  rw [encode, length_groups, size]

/-- An integer that fits `m` groups is written in as many or fewer. -/
theorem size_le_of_lt {n m : Nat} (h : n < 128 ^ (m + 1)) : size n ≤ m + 1 := by
  rw [size]
  by_cases hn : n = 0
  · subst hn
    simp
  · have hpow : (128 : Nat) ^ (m + 1) = 2 ^ (7 * (m + 1)) := Nat.pow_mul 2 7 (m + 1) ▸ rfl
    rw [hpow, ← Nat.log2_lt hn] at h
    omega

/-- What was read takes no more bytes when it is written. -/
theorem size_le_of_decode {n : Nat} (h : decode w bytes = (.ok n, rest)) :
    size n + rest.length ≤ bytes.length := by
  obtain ⟨hends, rfl, rfl⟩ := decode_eq_ok_iff.1 h
  have hlt := hends.continuing_lt
  have hvalue := groupsValue_lt (bytes.take (continuing bytes + 1))
  rw [List.length_take, Nat.min_eq_left hlt] at hvalue
  have hsize := size_le_of_lt hvalue
  rw [List.length_drop]
  omega

end Protobuf.Varint
