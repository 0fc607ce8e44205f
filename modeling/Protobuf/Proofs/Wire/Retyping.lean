import Protobuf.Proofs.Wire.Packed

/-! # Fields that change their kind

The kinds that are laid out as plain varints stand for integers.  A record that was written
under one of them may be read under any other: the reader finds the same integer, reduced to
the bits that its own kind has.  The two kinds that enumerate integers by magnitude go
together in the same way, apart from the others.

* `Cursor.ReadsAs`: a record is read as though another step had written it.
* `Cursor.ReadsInteger`: a record is read as an integer by each plain varint kind.
* `Scalar.StandsFor`: the integer that a value of such a kind stands for.
* `Cursor.kinds_interchangeable`: each kind that writes, and each kind that reads.
-/

namespace Protobuf

namespace Scalar

inductive StandsFor : (k : Scalar) → k.Carrier → Int → Prop
  | int32 (n : Int32) : StandsFor .int32 n n.toInt
  | int64 (n : Int64) : StandsFor .int64 n n.toInt
  | uint32 (n : UInt32) : StandsFor .uint32 n n.toNat
  | uint64 (n : UInt64) : StandsFor .uint64 n n.toNat
  | bool (b : Bool) : StandsFor .bool b b.toNat

variable {k : Scalar} {v : k.Carrier} {i : Int}

theorem StandsFor.wireType (h : StandsFor k v i) : k.wireType = .varint := by
  cases h <;> rfl

/-- All plain varint kinds write the word of the integer. -/
theorem StandsFor.put (h : StandsFor k v i) : k.put v = Varint.encode (word64 i) := by
  have word64_natCast : ∀ n : Nat, n < 2 ^ 64 → word64 n = n := fun n hn => by
    unfold word64
    omega
  cases h with
  | int32 | int64 => rfl
  | uint32 n =>
    have := n.toNat_lt
    rw [word64_natCast n.toNat (by omega)]
    rfl
  | uint64 n =>
    rw [word64_natCast n.toNat n.toNat_lt]
    rfl
  | bool b =>
    rw [word64_natCast b.toNat (by cases b <;> decide)]
    rfl

/-- A word is zero only for zero, as long as the integer has 64 bits, with a sign or
    without. -/
theorem StandsFor.word64_eq_zero_iff (h : StandsFor k v i) : word64 i = 0 ↔ i = 0 := by
  unfold word64
  cases h with
  | int32 n =>
    have := n.le_toInt
    have := n.toInt_lt
    omega
  | int64 n =>
    have := n.le_toInt
    have := n.toInt_lt
    omega
  | uint32 n =>
    have := n.toNat_lt
    omega
  | uint64 n =>
    have := n.toNat_lt
    omega
  | bool b => cases b <;> decide

theorem uint32_ofNat_word (i : Int) : UInt32.ofNat (word64 i) = UInt32.ofInt i := by
  rw [← UInt32.toNat_inj, UInt32.ofInt, UInt32.toNat_ofNat', UInt32.toNat_ofNat', word64]
  omega

/-! ## What a kind reads -/

/-- The word of an integer, as it is written and as it is taken. -/
theorem spells_word (i : Int) :
    Payload.Spells .varint (Varint.encode (word64 i)) (UInt64.ofNat (word64 i)) :=
  .varint (Varint.spells_encode (word64_lt i))

theorem toNat_word (i : Int) : (UInt64.ofNat (word64 i)).toNat = word64 i :=
  UInt64.toNat_ofNat_of_lt' (word64_lt i)

theorem spells_int32 (i : Int) : Spells .int32 (Varint.encode (word64 i)) (Int32.ofInt i) := by
  have value : Int32.ofInt (UInt64.ofNat (word64 i)).toNat = Int32.ofInt i := by
    rw [toNat_word, int32_ofInt_word]
  exact ⟨_, spells_word i, congrArg Except.ok value⟩

theorem spells_int64 (i : Int) : Spells .int64 (Varint.encode (word64 i)) (Int64.ofInt i) := by
  have value : Int64.ofInt (UInt64.ofNat (word64 i)).toNat = Int64.ofInt i := by
    rw [toNat_word, int64_ofInt_word]
  exact ⟨_, spells_word i, congrArg Except.ok value⟩

theorem spells_uint32 (i : Int) : Spells .uint32 (Varint.encode (word64 i)) (UInt32.ofInt i) := by
  have value : UInt32.ofNat (UInt64.ofNat (word64 i)).toNat = UInt32.ofInt i := by
    rw [toNat_word, uint32_ofNat_word]
  exact ⟨_, spells_word i, congrArg Except.ok value⟩

theorem spells_uint64 (i : Int) : Spells .uint64 (Varint.encode (word64 i)) (UInt64.ofInt i) :=
  ⟨_, spells_word i, rfl⟩

theorem StandsFor.spells_bool (h : StandsFor k v i) :
    Spells .bool (Varint.encode (word64 i)) (decide (i ≠ 0)) := by
  have value : decide ((UInt64.ofNat (word64 i)).toNat ≠ 0) = decide (i ≠ 0) := by
    rw [toNat_word]
    exact decide_eq_decide.2 (not_congr h.word64_eq_zero_iff)
  exact ⟨_, spells_word i, congrArg Except.ok value⟩

/-- The place of an integer in the order of magnitudes, read under 64 bits. -/
theorem spells_sint64 {i : Int} (fits : ZigZag.encode i < 2 ^ 64) :
    Spells .sint64 (Varint.encode (ZigZag.encode i)) (Int64.ofInt i) := by
  have value : Int64.ofInt (ZigZag.decode (UInt64.ofNat (ZigZag.encode i)).toNat) = Int64.ofInt i := by
    rw [UInt64.toNat_ofNat_of_lt' fits, ZigZag.decode_encode]
  exact ⟨_, .varint (Varint.spells_encode fits), congrArg Except.ok value⟩

theorem spells_sint32 {i : Int} (fits : ZigZag.encode i < 0x1_0000_0000) :
    Spells .sint32 (Varint.encode (ZigZag.encode i)) (Int32.ofInt i) := by
  have wide : ZigZag.encode i < 2 ^ 64 := by omega
  have value : Int32.ofInt (ZigZag.decode ((UInt64.ofNat (ZigZag.encode i)).toNat % 0x1_0000_0000)) =
      Int32.ofInt i := by
    rw [UInt64.toNat_ofNat_of_lt' wide, Nat.mod_eq_of_lt fits, ZigZag.decode_encode]
  exact ⟨_, .varint (Varint.spells_encode wide), congrArg Except.ok value⟩

end Scalar

namespace Cursor

/-! ## Records read under another kind -/

/-- What `written` adds to a message is one record, which is read, from the front of any
    input, as though `meant` had written it.  What stands behind it is left as it was. -/
def ReadsAs (written meant : WriteStep) : Prop :=
  ∃ bytes, written.bytes = .ok bytes ∧
    ∀ (c : Cursor) (rest : Bytes), c.IsDone → c.ahead = bytes ++ rest →
      ∃ c₁ c₂, c.next = (.ok true, c₁) ∧ Reads c₁ meant c₂ ∧ c₂.IsDone ∧ c₂.depth = c.depth ∧
        c₂.ahead = rest

theorem readsAs_of_spells {field : Nat} (number : IsFieldNumber field) {j k : Scalar}
    {v : k.Carrier} {w : j.Carrier} (layout : k.wireType = j.wireType)
    (spelled : j.Spells (k.put v) w) :
    ReadsAs (.scalar field k v) (.scalar field j w) := by
  obtain ⟨p, payload, value⟩ := spelled
  refine ⟨keyed field j.wireType (k.put v), ?_, fun c rest done ahead => ?_⟩
  · rw [WriteStep.bytes, layout, recordBytes_of_isFieldNumber number]
  have answer : read ⟨k.put v ++ rest, .positioned ⟨field, j.wireType⟩ false, c.depth⟩ j =
      (.ok w, ⟨rest, .positioned ⟨field, j.wireType⟩ true, c.depth⟩) := by
    simp only [read, content_of_unread (payload.take rest), value]
  exact ⟨_, _, next_of_keyed done number payload.isGroup ahead, .scalar rfl answer, trivial, rfl,
    rfl⟩

/-- The record that `written` adds under the number `field` is read as the integer `i` by
    each plain varint kind: in two's complement, reduced to the bits of the kind.  As a bool
    it tells whether `i` is zero. -/
structure ReadsInteger (field : Nat) (written : WriteStep) (i : Int) : Prop where
  int32 : ReadsAs written (.scalar field .int32 (Int32.ofInt i))
  int64 : ReadsAs written (.scalar field .int64 (Int64.ofInt i))
  uint32 : ReadsAs written (.scalar field .uint32 (UInt32.ofInt i))
  uint64 : ReadsAs written (.scalar field .uint64 (UInt64.ofInt i))
  bool : ReadsAs written (.scalar field .bool (decide (i ≠ 0)))

theorem readsInteger_of_standsFor {field : Nat} (number : IsFieldNumber field) {k : Scalar}
    {v : k.Carrier} {i : Int} (h : k.StandsFor v i) :
    ReadsInteger field (.scalar field k v) i where
  int32 := readsAs_of_spells number h.wireType (h.put ▸ Scalar.spells_int32 i)
  int64 := readsAs_of_spells number h.wireType (h.put ▸ Scalar.spells_int64 i)
  uint32 := readsAs_of_spells number h.wireType (h.put ▸ Scalar.spells_uint32 i)
  uint64 := readsAs_of_spells number h.wireType (h.put ▸ Scalar.spells_uint64 i)
  bool := readsAs_of_spells number h.wireType (h.put ▸ h.spells_bool)

/-- A record that was written under a plain varint kind is read by each of them as the
    integer that the value stands for.  One that was written under one of the kinds that
    enumerate integers by magnitude is read by the other one as the same integer, if that
    kind has it. -/
theorem kinds_interchangeable {field : Nat} (number : IsFieldNumber field) :
    (∀ n : Int32, ReadsInteger field (.scalar field .int32 n) n.toInt) ∧
    (∀ n : Int64, ReadsInteger field (.scalar field .int64 n) n.toInt) ∧
    (∀ n : UInt32, ReadsInteger field (.scalar field .uint32 n) n.toNat) ∧
    (∀ n : UInt64, ReadsInteger field (.scalar field .uint64 n) n.toNat) ∧
    (∀ b : Bool, ReadsInteger field (.scalar field .bool b) b.toNat) ∧
    (∀ n : Int32, ∃ m : Int64, m.toInt = n.toInt ∧
      ReadsAs (.scalar field .sint32 n) (.scalar field .sint64 m)) ∧
    ∀ m : Int64, -2 ^ 31 ≤ m.toInt → m.toInt < 2 ^ 31 → ∃ n : Int32, n.toInt = m.toInt ∧
      ReadsAs (.scalar field .sint64 m) (.scalar field .sint32 n) := by
  refine ⟨fun n => readsInteger_of_standsFor number (.int32 n),
    fun n => readsInteger_of_standsFor number (.int64 n),
    fun n => readsInteger_of_standsFor number (.uint32 n),
    fun n => readsInteger_of_standsFor number (.uint64 n),
    fun b => readsInteger_of_standsFor number (.bool b), fun n => ?_, fun m low high => ?_⟩
  · have fits := ZigZag.encode_int32_lt n
    have low := n.le_toInt
    have high := n.toInt_lt
    exact ⟨Int64.ofInt n.toInt, Int64.toInt_ofInt_of_le (by omega) (by omega),
      readsAs_of_spells number rfl (Scalar.spells_sint64 (by omega))⟩
  · have same : (Int32.ofInt m.toInt).toInt = m.toInt := Int32.toInt_ofInt_of_le low high
    have fits := ZigZag.encode_int32_lt (Int32.ofInt m.toInt)
    rw [same] at fits
    exact ⟨_, same, readsAs_of_spells number rfl (Scalar.spells_sint32 fits)⟩

/-- Sizes that are below zero or beyond 32 bits, under the greatest field number. -/
theorem kinds_interchangeable_sizes :
    IsFieldNumber 536870911 ∧
      ReadsAs (.scalar 536870911 .int32 (-2 : Int32)) (.scalar 536870911 .int64 (-2 : Int64)) ∧
      ReadsAs (.scalar 536870911 .int64 (-0x1_0000_0001 : Int64))
        (.scalar 536870911 .uint32 (4294967295 : UInt32)) ∧
      ReadsAs (.scalar 536870911 .uint64 (0x1_0000_0000 : UInt64))
        (.scalar 536870911 .bool true) ∧
      ReadsAs (.scalar 536870911 .sint64 (-0x8000_0000 : Int64))
        (.scalar 536870911 .sint32 (-0x8000_0000 : Int32)) := by
  have number : IsFieldNumber 536870911 := by decide
  obtain ⟨int32, int64, -, uint64, -, -, sint64⟩ := kinds_interchangeable number
  obtain ⟨n, same, reads⟩ := sint64 (-0x8000_0000) (by decide) (by decide)
  obtain rfl : n = -0x8000_0000 := Int32.toInt_inj.1 (same.trans (by decide))
  exact ⟨number, (int32 (-2)).int64, (int64 (-0x1_0000_0001)).uint32,
    (uint64 0x1_0000_0000).bool, reads⟩

end Cursor

end Protobuf
