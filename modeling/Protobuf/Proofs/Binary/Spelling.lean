import Protobuf.Proofs.Binary.Emission

/-! # The bytes of an emission are its record

Whatever a message of a type emits, a reader gets back: the bytes are cut off as the
record that stands beside them, and the record takes as many readers as it says.

* `packedPayload_scalars`: a list of plain values is packed as one of its kind.
* `Slot.spelled_emissions`, `Message.spelled_emissions`: bytes and record.
* `Slot.depth_le_iff_emissions`, `Message.depth_le_iff_emissions`: the depth of a slot, of
  a message is that of its deepest emission.
-/

namespace Protobuf

variable {Ref : Type} {S : Schema Ref}

theorem exists_scalars {t : PlainType} {vs : List Value}
    (typed : ∀ v ∈ vs, Value.HasType S (.plain t) v) :
    ∃ xs : List t.wire.Carrier, vs = xs.map (.scalar t.wire) := by
  induction vs with
  | nil => exact ⟨[], rfl⟩
  | cons v vs ih =>
    obtain ⟨x, rfl⟩ := (typed v (by simp)).exists_scalar
    obtain ⟨xs, rfl⟩ := ih fun v hv => typed v (by simp [hv])
    exact ⟨x :: xs, rfl⟩

/-- Scalars of a kind are packed one after the other. -/
theorem packedPayload_scalars (k : Scalar) (xs : List k.Carrier) :
    packedPayload (xs.map (.scalar k)) = k.pack xs := by
  induction xs with
  | nil => rfl
  | cons x xs ih => rw [List.map_cons, packedPayload, ih, Scalar.pack, Scalar.pack, List.flatMap_cons]

theorem Value.spelled_emission {t : FieldType Ref} {number : Nat} {v : Value}
    (typed : Value.HasType S t v) (valid : IsFieldNumber number)
    (fits : (v.emission S t number).bytes.Addressable) :
    Record.Spelled (v.emission S t number).bytes (v.record S t number) := by
  cases typed with
  | plain t x =>
    simp only [Value.emission, Value.wireType, Value.payload, Value.record] at fits ⊢
    exact Record.spelled_scalar valid _ x
      (fits.of_length_le (Record.length_payload_le_keyed _ _ _))
  | @message r slots h =>
    simp only [Value.emission, Value.wireType, Value.payload_message, Value.record] at fits ⊢
    exact Record.spelled_delimited valid (fits.of_length_le
      (Nat.le_trans (length_le_delimit _) (Record.length_payload_le_keyed _ _ _)))

/-- The bytes that a slot of a type emits are its records. -/
theorem Slot.spelled_emissions {t : SlotType Ref} {s : Slot} (typed : Slot.HasType S t s)
    (wf : t.WellFormed) {e : Emission} (he : e ∈ Slot.emissions S t s)
    (fits : e.bytes.Addressable) : Record.Spelled e.bytes e.record := by
  have hvalid := wf.valid _ (Slot.number_mem he)
  cases typed with
  | implicit f v =>
    rw [Slot.emissions] at he
    split at he
    · cases he
    · rw [List.mem_singleton.1 he] at fits hvalid ⊢
      exact Value.spelled_emission (.plain f.type v) (by simpa using hvalid) fits
  | absent f => cases he
  | @present f v h =>
    rw [Slot.emissions, List.mem_singleton] at he
    rw [he] at fits hvalid ⊢
    exact Value.spelled_emission h (by simpa using hvalid) fits
  | @repeated f vs h =>
    rw [Slot.emissions] at he
    split at he
    · split at he
      · cases he
      · rw [List.mem_singleton.1 he] at fits hvalid ⊢
        exact Record.spelled_delimited hvalid (fits.of_length_le
          (Nat.le_trans (length_le_delimit _) (Record.length_payload_le_keyed _ _ _)))
    · obtain ⟨v, hv, rfl⟩ := List.mem_map.1 he
      exact Value.spelled_emission (h v hv) (by simpa using hvalid) fits
  | @map key f entries sorted keys values =>
    rw [Slot.emissions] at he
    obtain ⟨entry, -, rfl⟩ := List.mem_map.1 he
    exact Record.spelled_delimited hvalid (fits.of_length_le
      (Nat.le_trans (length_le_delimit _) (Record.length_payload_le_keyed _ _ _)))
  | unset name members => cases he
  | @member name members f v mem h =>
    rw [Slot.emissions, find?_of_nodup wf.distinct mem] at he
    rw [List.mem_singleton.1 he] at fits hvalid ⊢
    exact Value.spelled_emission h (by simpa using hvalid) fits

theorem Message.spelled_emissions {r : Ref} {m : Message} (typed : Message.HasType S r m)
    (wf : (S r).WellFormed) (fits : (Message.encode S r m).Addressable) :
    ∀ e ∈ messageEmissions S r m, Record.Spelled e.bytes e.record := by
  intro e he
  obtain ⟨p, hp, hep⟩ := exists_number_mem ((List.mergeSort_perm _ _).mem_iff.1 he)
  have hmem := (List.of_mem_zip hp).1
  refine Slot.spelled_emissions (List.forall₂_zip typed hp) (wf.slot hmem) hep
    (fits.of_length_le ?_)
  rw [Message.encode_eq]
  exact (List.sublist_flatten_of_mem (List.mem_map_of_mem he)).length_le

/-! ## Depth -/

theorem Value.depth_of_isPacked {t : FieldType Ref} {v : Value} (typed : Value.HasType S t v)
    (h : t.isPacked) : v.depth = 0 := by
  cases typed with
  | plain t x => rfl
  | message hslots => cases h

theorem Slot.depth_le_iff_emissions {t : SlotType Ref} {s : Slot} (typed : Slot.HasType S t s)
    (wf : t.WellFormed) {n : Nat} :
    s.depth ≤ n ↔ ∀ e ∈ Slot.emissions S t s, e.depth ≤ n := by
  cases typed with
  | implicit f v =>
    rw [Slot.emissions]
    split <;> simp [Slot.depth, Value.emission, Value.depth]
  | absent f => simp [Slot.depth, Slot.emissions]
  | present h => simp [Slot.depth, Slot.emissions, Value.emission]
  | @repeated f vs h =>
    rw [Slot.depth, valuesDepth_le_iff, Slot.emissions]
    split
    · -- Only scalars are packed, and those take no reader.
      rename_i hpacked
      have hflat : ∀ v ∈ vs, v.depth ≤ n := fun v hv => by
        rw [Value.depth_of_isPacked (h v hv) hpacked]
        omega
      split <;> simpa [packedEmission] using hflat
    · simp [Value.emission]
  | map sorted keys values =>
    rw [Slot.depth, entriesDepth_le_iff, Slot.emissions, List.forall_mem_map]
    rfl
  | unset name members => simp [Slot.depth, Slot.emissions]
  | member mem h =>
    simp [Slot.depth, Slot.emissions, find?_of_nodup wf.distinct mem, Value.emission]

/-- A message is as deep as its deepest emission. -/
theorem Message.depth_le_iff_emissions {r : Ref} {m : Message} (typed : Message.HasType S r m)
    (wf : (S r).WellFormed) {n : Nat} :
    Message.depth m ≤ n ↔ ∀ e ∈ messageEmissions S r m, e.depth ≤ n := by
  have hzip : ∀ p ∈ (S r).slots.zip m, p.2.depth ≤ n ↔
      ∀ e ∈ Slot.emissions S p.1 p.2, e.depth ≤ n := fun p hp =>
    Slot.depth_le_iff_emissions (List.forall₂_zip typed hp) (wf.slot (List.of_mem_zip hp).1)
  rw [Message.depth_le_iff]
  constructor
  · intro h e he
    obtain ⟨p, hp, hep⟩ := exists_number_mem ((List.mergeSort_perm _ _).mem_iff.1 he)
    exact (hzip p hp).1 (h _ (List.of_mem_zip hp).2) e hep
  · intro h s hs
    -- The emissions of the slot are among those of the message, wherever the sort put them.
    obtain ⟨t, hp⟩ := exists_mem_zip typed hs
    refine (hzip (t, s) hp).2 fun e he => h e ?_
    rw [← filter_messageEmissions wf.distinct hp] at he
    exact (List.mem_filter.1 he).1

end Protobuf
