import Protobuf.Proofs.Binary.Merging

/-! # Written messages are read back

The bytes of a message, merged into another message of its type, lay the one over the
other; decoded on their own, they give the message back.  Both hold up to the depth that
readers go, and beyond it reading fails for that reason alone.

* `applyAll_overlaySlots`: the records of slots, in any order that keeps those of one slot
  in order.
* `Message.reads_encode`: the records of a message.
* `faithful_nestedWithin`: readers of nested payloads give back what was written.
* `Message.mergeBytes_encode`, `Message.decode_encode_eq`: whole messages.
-/

namespace Protobuf

variable {Ref : Type} {S : Schema Ref} {nested : Nested Ref} {levels : Nat}

theorem applyAll_mergeRecord_cons {t : SlotType Ref} {ts : List (SlotType Ref)} {s s' : Slot}
    {ss ss' : List Slot} (es : List Emission)
    (hfirst : Record.applyAll (fun rec o => Slot.mergeRecord S nested rec t o)
      ((es.filter fun e => e.record.number ∈ t.numbers).map (·.record)) s = (.ok (), s'))
    (hothers : Record.applyAll (fun rec m => mergeRecord S nested rec ts m)
      ((es.filter fun e => e.record.number ∉ t.numbers).map (·.record)) ss = (.ok (), ss')) :
    Record.applyAll (fun rec m => mergeRecord S nested rec (t :: ts) m) (es.map (·.record)) (s :: ss) =
      (.ok (), s' :: ss') := by
  -- Every record goes either to the first slot or to the others, and leaves the rest alone.
  induction es generalizing s ss with
  | nil =>
    cases hfirst
    cases hothers
    rfl
  | cons e es ih =>
    rw [List.map_cons, Record.applyAll]
    by_cases hmem : e.record.number ∈ t.numbers
    · simp only [List.filter_cons, hmem, decide_true, if_true, not_true, decide_false,
        Bool.false_eq_true, if_false, List.map_cons] at hfirst hothers
      simp only [mergeRecord, if_pos hmem]
      rw [Record.applyAll] at hfirst
      split at hfirst
      · cases hfirst
      · rename_i s₁ hstep
        rw [hstep]
        exact ih hfirst hothers
    · simp only [List.filter_cons, hmem, decide_false, Bool.false_eq_true, if_false, not_false_eq_true,
        decide_true, if_true, List.map_cons] at hfirst hothers
      simp only [mergeRecord, if_neg hmem]
      rw [Record.applyAll] at hothers
      split at hothers
      · cases hothers
      · rename_i ss₁ hstep
        rw [hstep]
        exact ih hfirst hothers

/-- The records of slots, read in an order that keeps those of each slot in order, lay the
    slots over those that were there. -/
theorem applyAll_overlaySlots (h : nested.Faithful S levels) {ts : List (SlotType Ref)}
    {olds news : List Slot} (wf : ∀ t ∈ ts, t.WellFormed)
    (distinct : (ts.flatMap SlotType.numbers).Nodup) (holds : List.Forall₂ (Slot.HasType S) ts olds)
    (hnews : List.Forall₂ (Slot.HasType S) ts news) {es : List Emission}
    (hall : ∀ e ∈ es, e.record.number ∈ ts.flatMap SlotType.numbers)
    (hslots : ∀ p ∈ ts.zip news,
      es.filter (fun e => e.record.number ∈ p.1.numbers) = Slot.emissions S p.1 p.2)
    (fits : ∀ e ∈ es, e.bytes.Addressable) (deep : ∀ e ∈ es, e.depth ≤ levels) :
    Record.applyAll (fun rec m => mergeRecord S nested rec ts m) (es.map (·.record)) olds =
      (.ok (), overlaySlots S ts olds news) := by
  induction hnews generalizing olds es with
  | nil =>
    cases holds
    cases es with
    | nil => rfl
    | cons e es => exact absurd (hall e (by simp)) (by simp)
  | @cons t s ts news hs hnews ih =>
    cases holds with
    | @cons _ old _ olds hold holds =>
      rw [List.flatMap_cons, List.nodup_append] at distinct
      obtain ⟨-, hrest, hdisjoint⟩ := distinct
      have hfirst := hslots (t, s) (by simp)
      -- What is left for the later slots are the records whose number is none of the first slot.
      have hmem : ∀ e ∈ Slot.emissions S t s, e ∈ es := fun e he =>
        (List.mem_filter.1 (hfirst ▸ he)).1
      rw [overlaySlots]
      refine applyAll_mergeRecord_cons es ?_ ?_
      · rw [hfirst]
        exact Slot.applyAll_emissions h (wf t (by simp)) hold hs (fun e he => fits e (hmem e he))
          fun e he => deep e (hmem e he)
      · refine ih (fun t' ht' => wf t' (by simp [ht'])) hrest holds (fun e he => ?_) (fun p hp => ?_)
          (fun e he => fits e (List.mem_filter.1 he).1) fun e he => deep e (List.mem_filter.1 he).1
        · obtain ⟨he, hnot⟩ := List.mem_filter.1 he
          have := hall e he
          rw [List.flatMap_cons, List.mem_append] at this
          exact this.resolve_left (by simpa using hnot)
        · -- A record for a later slot is not one for the first.
          rw [List.filter_filter, ← hslots p (by simp [hp])]
          refine List.filter_congr fun e _ => ?_
          by_cases hp' : e.record.number ∈ p.1.numbers
          · have hnot : e.record.number ∉ t.numbers := fun hin => hdisjoint _ hin _
              (List.mem_flatMap.2 ⟨p.1, (List.of_mem_zip hp).1, hp'⟩) rfl
            simp [hp', hnot]
          · simp [hp']

theorem reads_slotEmission (h : nested.Faithful S levels) {ts : List (SlotType Ref)}
    {olds news : List Slot} (wf : ∀ t ∈ ts, t.WellFormed)
    (distinct : (ts.flatMap SlotType.numbers).Nodup) (holds : List.Forall₂ (Slot.HasType S) ts olds)
    (hnews : List.Forall₂ (Slot.HasType S) ts news) {e : Emission}
    (he : e ∈ slotEmissions S ts news) (fits : e.bytes.Addressable) :
    ∃ expected, Reads levels e.depth (mergeRecord S nested e.record ts olds) expected := by
  induction hnews generalizing olds with
  | nil => cases he
  | @cons t s ts news hs hnews ih =>
    cases holds with
    | @cons _ old _ olds hold holds =>
      rw [List.flatMap_cons, List.nodup_append] at distinct
      obtain ⟨-, hrest, hdisjoint⟩ := distinct
      rw [slotEmissions, List.mem_append] at he
      rw [mergeRecord]
      rcases he with he | he
      · obtain ⟨expected, hreads⟩ := Slot.reads_emission h (wf t (by simp)) hold hs he fits
        rw [if_pos (Slot.number_mem he)]
        exact ⟨_, hreads.map (· :: olds)⟩
      · obtain ⟨p, hp, hep⟩ := exists_number_mem he
        have hnot : e.record.number ∉ t.numbers := fun hin => hdisjoint _ hin _
          (List.mem_flatMap.2 ⟨p.1, (List.of_mem_zip hp).1, Slot.number_mem hep⟩) rfl
        obtain ⟨expected, hreads⟩ := ih (fun t' ht' => wf t' (by simp [ht'])) hrest holds he
        rw [if_neg hnot]
        exact ⟨_, hreads.map (old :: ·)⟩

theorem applyAll_limit {σ : Type} {step : Record → σ → Except DecodeError Unit × σ} {P : σ → Prop}
    (hstep : ∀ r s, P s → P (step r s).2) {es : List Emission}
    (hreads : ∀ e ∈ es, ∀ s, P s → ∃ expected, Reads levels e.depth (step e.record s) expected)
    (hdeep : ∃ e ∈ es, levels < e.depth) {s : σ} (hs : P s) :
    (Record.applyAll step (es.map (·.record)) s).1 = .error (.nestingLimit nestingLimit) := by
  -- The first record that is too deep ends the reading, and those in front of it keep `P`.
  induction es generalizing s with
  | nil => simp at hdeep
  | cons e es ih =>
    obtain ⟨expected, hfirst⟩ := hreads e (by simp) s hs
    rw [List.map_cons, Record.applyAll]
    by_cases hle : e.depth ≤ levels
    · have hnext := hstep e.record s hs
      rw [hfirst.ok hle] at hnext ⊢
      refine ih (fun e' he' => hreads e' (by simp [he'])) ?_ hnext
      obtain ⟨e', he', hlt⟩ := hdeep
      rcases List.mem_cons.1 he' with rfl | he'
      · omega
      · exact ⟨e', he', hlt⟩
    · have hlimit := hfirst.limit (by omega)
      split
      · rename_i herror
        rw [herror] at hlimit
        exact hlimit
      · rename_i hok
        rw [hok] at hlimit
        cases hlimit

/-! ## Messages -/

/-- The bytes of a message, merged into another, lay it over the other, unless it is nested
    too deeply. -/
theorem Message.reads_encode (wf : S.WellFormed) (h : nested.Faithful S levels)
    (hkeeps : nested.Typed S) {r : Ref} {old m : Message} (hold : HasType S r old)
    (typed : HasType S r m) (fits : (encode S r m).Addressable) :
    Reads levels (depth m)
      (Record.forEach (fun rec m => mergeRecord S nested rec (S r).slots m) (encode S r m) old)
      (overlay S r old m) := by
  have hspelled := spelled_emissions typed (wf r) fits
  have hdepth := depth_le_iff_emissions typed (wf r) (n := levels)
  have hslots : ∀ t ∈ (S r).slots, t.WellFormed := fun t ht => (wf r).slot ht
  have hperm := List.mergeSort_perm (slotEmissions S (S r).slots m) Emission.mayPrecede
  have hfits : ∀ e ∈ messageEmissions S r m, e.bytes.Addressable := fun e he =>
    fits.of_length_le (encode_eq (S := S) r m ▸
      (List.sublist_flatten_of_mem (List.mem_map_of_mem he)).length_le)
  rw [encode_eq, Record.forEach_flatten _ hspelled]
  constructor
  · intro hle
    -- The sort moves the records of different slots past one another, and no others.
    refine applyAll_overlaySlots h hslots (wf r).distinct hold typed (fun e he => ?_)
      (fun p hp => filter_messageEmissions (wf r).distinct hp) hfits (hdepth.1 hle)
    obtain ⟨p, hp, hep⟩ := exists_number_mem (hperm.mem_iff.1 he)
    exact List.mem_flatMap.2 ⟨p.1, (List.of_mem_zip hp).1, Slot.number_mem hep⟩
  · intro hlt
    refine applyAll_limit (P := HasType S r)
      (fun rec m hm => hasType_mergeRecord hkeeps rec hslots hm)
      (fun e he m' hm' => reads_slotEmission h hslots (wf r).distinct hm' typed (hperm.mem_iff.1 he)
        (hfits e he)) ?_ hold
    -- A message that is too deep has a record that is.
    by_contra hnone
    have := hdepth.2 fun e he => Nat.le_of_not_lt fun hlt => hnone ⟨e, he, hlt⟩
    omega

theorem nestedWithin_entryBytes {levels : Nat} (h : (nestedWithin S levels).Faithful S levels)
    {key : Scalar} {t : FieldType Ref} {e : MapKey × Value} (hkey : key.isKey)
    (hk : e.1.HasKind key) (hv : Value.HasType S t e.2)
    (fits : (entryBytes S key t e).Addressable) :
    (nestedWithin S (levels + 1)).entry key t (entryBytes S key t e) =
      if e.2.depth + 1 ≤ levels + 1 then .ok e else .error (.nestingLimit nestingLimit) := by
  have hbytes : entryBytes S key t e =
      keyed 1 key.wireType (key.put (e.1.toScalar key)) ++ (e.2.emission S t 2).bytes := rfl
  rw [hbytes] at fits ⊢
  have hfits₁ : (keyed 1 key.wireType (key.put (e.1.toScalar key))).Addressable :=
    fits.of_length_le (by simp)
  have hfits₂ : (e.2.emission S t 2).bytes.Addressable := fits.of_length_le (by simp)
  have hone := Record.spelled_scalar (show IsFieldNumber 1 by decide) key (e.1.toScalar key)
    (hfits₁.of_length_le (Record.length_payload_le_keyed _ _ _))
  have htwo := Value.spelled_emission hv (show IsFieldNumber 2 by decide) hfits₂
  -- The key is read first; the value is then merged into its default.
  have hvalue := h.reads_onto (Value.hasType_default S t) hv hfits₂
  rw [Value.overlay_default t e.2 hv] at hvalue
  rw [nestedWithin_succ_entry, Record.forEach_append hone, ← List.append_nil (Emission.bytes _)]
  simp only [entryStep, if_true, Record.scalar_toPayload, Record.forEach_append htwo,
    Value.record_number, if_neg (show ¬2 = 1 by decide), Record.forEach_nil]
  by_cases hle : e.2.depth ≤ levels
  · rw [hvalue.ok hle, if_pos (by omega)]
    simp only [MapKey.ofScalar_toScalar hkey hk]
  · have hlimit := hvalue.limit (by omega)
    simp [hlimit, hle]

/-- Readers of nested payloads give back what was written. -/
theorem faithful_nestedWithin (wf : S.WellFormed) (levels : Nat) :
    (nestedWithin S levels).Faithful S levels := by
  induction levels with
  | zero =>
    constructor
    · exact fun _ _ _ => ⟨fun hle => absurd hle (Nat.not_succ_le_zero _), fun _ => rfl⟩
    · intro key t e _ _ _ _
      rw [nestedWithin_zero_entry, if_neg (Nat.not_succ_le_zero _)]
  | succ levels ih =>
    constructor
    · intro r old m hold hm fits
      have hreads := Message.reads_encode wf ih (typed_nestedWithin wf levels) hold hm fits
      exact ⟨fun hle => hreads.ok (Nat.le_of_succ_le_succ hle),
        fun hlt => hreads.limit (Nat.lt_of_succ_lt_succ hlt)⟩
    · exact nestedWithin_entryBytes ih

/-- Merging the bytes of a message into another of its type lays it over the other. -/
theorem Message.mergeBytes_encode (wf : S.WellFormed) {r : Ref} {old m : Message}
    (hold : HasType S r old) (typed : HasType S r m) (fits : (encode S r m).Addressable) :
    Reads nestingLimit (depth m) (mergeBytes S r (encode S r m) old) (overlay S r old m) :=
  reads_encode wf (faithful_nestedWithin wf _) (typed_nestedWithin wf _) hold typed fits

/-- A message that was written is read back exactly if it is no deeper than readers go. -/
theorem Message.decode_encode_eq (wf : S.WellFormed) {r : Ref} {m : Message}
    (typed : HasType S r m) (fits : (encode S r m).Addressable) :
    decode S r (encode S r m) =
      if depth m ≤ nestingLimit then .ok m else .error (.nestingLimit nestingLimit) := by
  have hreads := mergeBytes_encode wf (hasType_default S r) typed fits
  rw [overlay_default typed] at hreads
  rw [decode]
  by_cases hle : depth m ≤ nestingLimit
  · rw [hreads.ok hle, if_pos hle]
  · have hlimit := hreads.limit (by omega)
    rw [if_neg hle]
    split
    · rename_i hread
      rw [hread] at hlimit
      cases hlimit
    · rename_i hread
      rw [hread] at hlimit
      cases hlimit
      rfl

end Protobuf
