import Protobuf.Proofs.Binary.Overlay
import Protobuf.Proofs.Wire.Record
import Protobuf.Schema.Binary

/-! # What a message is written as

A message is written as a series of records.  Beside the bytes of each stand the record
that a reader gets from them, and the readers that its payload takes.

* `Emission`: a written record.
* `Slot.emissions`, `slotEmissions`, `messageEmissions`: what a slot, a list of slots, a
  message is written as.
* `Message.encode_eq`: the bytes of a message are those of its emissions.
* `filter_messageEmissions`: sorting by number leaves what one slot emits together and in
  order.
-/

namespace Protobuf

variable {Ref : Type}

structure Emission where
  bytes : Bytes
  record : Record
  /-- The readers that the payload takes. -/
  depth : Nat

/-! ## Values -/

section

variable (S : Schema Ref)

def Value.record (t : FieldType Ref) (number : Nat) : Value → Record
  | .scalar k x => ⟨number, k.wireType, .ok (k.toPayload x)⟩
  | .message slots =>
    match t with
    | .message r => ⟨number, .delimited, .ok (Message.encode S r slots)⟩
    | .plain _ => ⟨number, .delimited, .ok []⟩

def Value.emission (t : FieldType Ref) (number : Nat) (v : Value) : Emission :=
  ⟨keyed number v.wireType (v.payload S t), v.record S t number, v.depth⟩

def entryBytes (key : Scalar) (t : FieldType Ref) (e : MapKey × Value) : Bytes :=
  keyed 1 key.wireType (key.put (e.1.toScalar key)) ++ keyed 2 e.2.wireType (e.2.payload S t)

def entryEmission (key : Scalar) (f : Field (FieldType Ref)) (e : MapKey × Value) : Emission :=
  ⟨keyed f.number .delimited (delimit (entryBytes S key f.type e)),
    ⟨f.number, .delimited, .ok (entryBytes S key f.type e)⟩, e.2.depth + 1⟩

def packedEmission (number : Nat) (vs : List Value) : Emission :=
  ⟨keyed number .delimited (delimit (packedPayload vs)),
    ⟨number, .delimited, .ok (packedPayload vs)⟩, 0⟩

/-! ## Slots -/

def Slot.emissions : SlotType Ref → Slot → List Emission
  | .implicit f, .implicit k v =>
    if v = k.default then [] else [Value.emission S (.plain f.type) f.number (.scalar k v)]
  | .optional f, .optional (some v) => [v.emission S f.type f.number]
  | .repeated f, .repeated vs =>
    if f.type.isPacked then if vs.isEmpty then [] else [packedEmission f.number vs]
    else vs.map (Value.emission S f.type f.number)
  | .map key f, .map entries => entries.map (entryEmission S key f)
  | .oneof _ members, .oneof (some (number, v)) =>
    match members.find? (·.number = number) with
    | some f => [v.emission S f.type number]
    | none => []
  | _, _ => []

def slotEmissions : List (SlotType Ref) → List Slot → List Emission
  | t :: ts, s :: ss => Slot.emissions S t s ++ slotEmissions ts ss
  | _, _ => []

def Emission.mayPrecede (a b : Emission) : Bool := a.record.number ≤ b.record.number

def messageEmissions (r : Ref) (m : Message) : List Emission :=
  (slotEmissions S (S r).slots m).mergeSort Emission.mayPrecede

end

variable {S : Schema Ref}

/-! ## Bytes -/

@[simp] theorem Value.record_number (t : FieldType Ref) (number : Nat) (v : Value) :
    (v.record S t number).number = number := by
  cases v with
  | scalar k x => rfl
  | message slots => cases t <;> rfl

@[simp] theorem Value.emission_number (t : FieldType Ref) (number : Nat) (v : Value) :
    (v.emission S t number).record.number = number :=
  Value.record_number t number v

theorem Value.payload_message (r : Ref) (m : Message) :
    (Value.message m).payload S (.message r) = delimit (Message.encode S r m) := by
  rw [Value.payload, Message.encode]

theorem elementRecords_eq (f : Field (FieldType Ref)) (vs : List Value) :
    elementRecords S f vs =
      (vs.map (Value.emission S f.type f.number)).map fun e => (e.record.number, e.bytes) := by
  induction vs with
  | nil => rfl
  | cons v vs ih => simp [elementRecords, ih]; rfl

theorem entryRecords_eq (key : Scalar) (f : Field (FieldType Ref)) (entries : List (MapKey × Value)) :
    entryRecords S key f entries =
      (entries.map (entryEmission S key f)).map fun e => (e.record.number, e.bytes) := by
  induction entries with
  | nil => rfl
  | cons e entries ih => simp [entryRecords, ih, entryEmission, entryBytes]

theorem Slot.records_eq (t : SlotType Ref) (s : Slot) :
    Slot.records S t s = (Slot.emissions S t s).map fun e => (e.record.number, e.bytes) := by
  -- The cases are those of the definition, and in each both sides list the same records.
  unfold Slot.emissions
  split
  · rw [Slot.records]
    split <;> simp [Value.emission, Value.payload, Value.wireType]
  · simp [Slot.records, Value.emission]
  · rw [Slot.records, elementRecords_eq]
    split
    · split <;> simp [packedEmission]
    · rfl
  · rw [Slot.records, entryRecords_eq]
  · rename_i members number v
    rw [Slot.records]
    cases members.find? (·.number = number) with
    | none => rfl
    | some f => simp [Value.emission]
  · rw [Slot.records] <;> first | rfl | assumption

theorem slotRecords_eq (ts : List (SlotType Ref)) (ss : List Slot) :
    slotRecords S ts ss = (slotEmissions S ts ss).map fun e => (e.record.number, e.bytes) := by
  induction ts generalizing ss with
  | nil => cases ss <;> rfl
  | cons t ts ih =>
    cases ss with
    | nil => rfl
    | cons s ss => rw [slotRecords, slotEmissions, Slot.records_eq, ih, List.map_append]

/-- The bytes of a message are those of its emissions. -/
theorem Message.encode_eq (r : Ref) (m : Message) :
    Message.encode S r m = ((messageEmissions S r m).map (·.bytes)).flatten := by
  unfold Message.encode byNumber messageEmissions
  rw [slotRecords_eq, ← List.map_mergeSort (r := Emission.mayPrecede), List.map_map]
  · rfl
  · intro a _ b _
    rfl

/-- The order of the records makes no difference to the length. -/
theorem Message.length_encode (r : Ref) (m : Message) :
    (Message.encode S r m).length = ((slotRecords S (S r).slots m).flatMap (·.2)).length := by
  rw [Message.encode, byNumber, ← List.flatMap_def]
  exact ((List.mergeSort_perm _ _).flatMap_right _).length_eq

/-! ## Field numbers -/

theorem Slot.exists_number (t : SlotType Ref) (s : Slot) :
    ∃ number, ∀ e ∈ Slot.emissions S t s, e.record.number = number ∧ number ∈ t.numbers := by
  -- The number is that of the field, and for a oneof that of the member that is set.
  unfold Slot.emissions
  split
  · rename_i f k v
    exact ⟨f.number, by split <;> simp [SlotType.numbers]⟩
  · rename_i f v
    exact ⟨f.number, by simp [SlotType.numbers]⟩
  · rename_i f vs
    refine ⟨f.number, ?_⟩
    split
    · split <;> simp [packedEmission, SlotType.numbers]
    · simp [SlotType.numbers]
  · rename_i key f entries
    refine ⟨f.number, fun e he => ?_⟩
    obtain ⟨entry, -, rfl⟩ := List.mem_map.1 he
    exact ⟨rfl, by simp [SlotType.numbers]⟩
  · rename_i name members number v
    refine ⟨number, ?_⟩
    split
    · rename_i f hfind
      have hmem := List.mem_of_find?_eq_some hfind
      have hnumber : f.number = number := by simpa using List.find?_some hfind
      simp only [List.mem_singleton, forall_eq, Value.emission_number, true_and]
      exact hnumber ▸ List.mem_map_of_mem hmem
    · simp
  · exact ⟨0, by simp⟩

theorem Slot.pairwise_emissions (t : SlotType Ref) (s : Slot) :
    (Slot.emissions S t s).Pairwise fun a b => a.mayPrecede b := by
  obtain ⟨number, h⟩ := Slot.exists_number (S := S) t s
  refine List.pairwise_of_forall_mem_list fun a ha b hb => ?_
  simp only [Emission.mayPrecede, (h a ha).1, (h b hb).1, Nat.le_refl, decide_true]

theorem Slot.number_mem {t : SlotType Ref} {s : Slot} {e : Emission}
    (he : e ∈ Slot.emissions S t s) : e.record.number ∈ t.numbers := by
  obtain ⟨number, h⟩ := Slot.exists_number (S := S) t s
  rw [(h e he).1]
  exact (h e he).2

theorem exists_number_mem {ts : List (SlotType Ref)} {ss : List Slot} {e : Emission}
    (he : e ∈ slotEmissions S ts ss) : ∃ p ∈ ts.zip ss, e ∈ Slot.emissions S p.1 p.2 := by
  induction ts generalizing ss with
  | nil => cases ss <;> simp [slotEmissions] at he
  | cons t ts ih =>
    cases ss with
    | nil => simp [slotEmissions] at he
    | cons s ss =>
      rw [slotEmissions, List.mem_append] at he
      rcases he with he | he
      · exact ⟨(t, s), by simp, he⟩
      · obtain ⟨p, hp, hep⟩ := ih he
        exact ⟨p, by simp [hp], hep⟩

/-! ## The emissions of one slot among all -/

theorem Emission.mayPrecede_trans (a b c : Emission) (hab : a.mayPrecede b)
    (hbc : b.mayPrecede c) : a.mayPrecede c := by
  simp only [mayPrecede, decide_eq_true_eq] at *
  omega

theorem Emission.mayPrecede_total (a b : Emission) : a.mayPrecede b || b.mayPrecede a := by
  simp only [mayPrecede, Bool.or_eq_true, decide_eq_true_eq]
  omega

theorem filter_slotEmissions {ts : List (SlotType Ref)} {ss : List Slot}
    (distinct : (ts.flatMap SlotType.numbers).Nodup) {p : SlotType Ref × Slot}
    (hp : p ∈ ts.zip ss) :
    (slotEmissions S ts ss).filter (fun e => e.record.number ∈ p.1.numbers) =
      Slot.emissions S p.1 p.2 := by
  induction ts generalizing ss with
  | nil => simp at hp
  | cons t ts ih =>
    cases ss with
    | nil => simp at hp
    | cons s ss =>
      rw [List.flatMap_cons, List.nodup_append] at distinct
      obtain ⟨-, hrest, hdisjoint⟩ := distinct
      rw [slotEmissions, List.filter_append]
      rcases List.mem_cons.1 (List.zip_cons_cons ▸ hp) with rfl | hp
      · -- All that the first slot emits is kept, and nothing of what the others emit.
        have hfirst : (Slot.emissions S t s).filter (fun e => e.record.number ∈ t.numbers) =
            Slot.emissions S t s :=
          List.filter_eq_self.2 fun e he => by simpa using Slot.number_mem he
        have hothers : (slotEmissions S ts ss).filter (fun e => e.record.number ∈ t.numbers) =
            [] := by
          refine List.filter_eq_nil_iff.2 fun e he hmem => ?_
          obtain ⟨q, hq, heq⟩ := exists_number_mem he
          refine hdisjoint _ (by simpa using hmem) _ ?_ rfl
          exact List.mem_flatMap.2 ⟨q.1, (List.of_mem_zip hq).1, Slot.number_mem heq⟩
        simp only [hfirst, hothers, List.append_nil]
      · -- Nothing that the first slot emits is kept.
        have hfirst : (Slot.emissions S t s).filter (fun e => e.record.number ∈ p.1.numbers) =
            [] := by
          refine List.filter_eq_nil_iff.2 fun e he hmem => ?_
          refine hdisjoint _ (Slot.number_mem he) _ ?_ rfl
          exact List.mem_flatMap.2 ⟨p.1, (List.of_mem_zip hp).1, by simpa using hmem⟩
        rw [hfirst, List.nil_append, ih hrest hp]

/-- Sorting by number leaves what one slot emits together and in order. -/
theorem filter_messageEmissions {r : Ref} {m : Message}
    (distinct : ((S r).slots.flatMap SlotType.numbers).Nodup) {p : SlotType Ref × Slot}
    (hp : p ∈ (S r).slots.zip m) :
    (messageEmissions S r m).filter (fun e => e.record.number ∈ p.1.numbers) =
      Slot.emissions S p.1 p.2 := by
  have hfilter := filter_slotEmissions (S := S) distinct hp
  unfold messageEmissions
  -- What the slot emits has one number, so it is sorted already and the sort keeps it in order.
  have hsublist := List.sublist_mergeSort Emission.mayPrecede_trans Emission.mayPrecede_total
    (Slot.pairwise_emissions p.1 p.2) (hfilter ▸ List.filter_sublist)
  have hself : (Slot.emissions S p.1 p.2).filter (fun e => e.record.number ∈ p.1.numbers) =
      Slot.emissions S p.1 p.2 :=
    List.filter_eq_self.2 fun e he => by simpa using Slot.number_mem he
  have hkept := hsublist.filter fun e => decide (e.record.number ∈ p.1.numbers)
  rw [hself] at hkept
  refine (hkept.eq_of_length ?_).symm
  rw [((List.mergeSort_perm _ _).filter _).length_eq, hfilter]

end Protobuf
