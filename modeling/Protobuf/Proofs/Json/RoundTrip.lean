import Mathlib.Data.List.Pairwise
import Protobuf.Proofs.Json.Slots
import Protobuf.Proofs.Schema.Depth

/-! # Messages are read back from JSON

Every message that JSON can say is written, and merged into a message of which nothing is
set it is read back.

* `Slot.exists_told`: what one slot is written as, given what its values are written as.
* `Message.exists_json_of_slots`: what a message is written as, given what its slots are.
* `Message.exists_json`: messages of any depth.
-/

namespace Protobuf

variable {Ref : Type} {S : Schema Ref}

/-- A slot tells its content if its values are written so that they are read back. -/
theorem Slot.exists_told {t : SlotType Ref} {s : Slot} {n : Nat} (wf : t.Coherent)
    (apart : t.names.Pairwise Apart) (enums : ∀ u ∈ t.types, u.hasDistinctNames)
    (typed : Slot.HasType S t s) (exact : Slot.Exact S t s) (deep : s.depth ≤ n)
    (ih : ∀ {u v}, u ∈ t.types → Value.HasType S u v → Value.Exact S u v → v.depth ≤ n →
      ∃ j, v.toJson S u = .ok j ∧ j.Means S u v) :
    ∃ es, Slot.Told S t s es := by
  cases typed with
  | implicit f v =>
    cases exact with
    | implicit h => exact Slot.Told.implicit (enums _ List.mem_cons_self) h
  | absent f =>
    exact ⟨[], Slot.Told.of_default rfl rfl fun ms htells => mergeNamed_none htells⟩
  | present typed =>
    cases exact with
    | present h =>
      rw [Slot.depth] at deep
      obtain ⟨j, hj, hmeans⟩ := ih List.mem_cons_self typed h deep
      exact ⟨_, Slot.Told.optional hj hmeans⟩
  | repeated typed =>
    cases exact with
    | repeated h =>
      rw [Slot.depth, valuesDepth_le_iff] at deep
      exact Slot.Told.repeated fun v hv => ih List.mem_cons_self (typed v hv) (h v hv) (deep v hv)
  | map sorted keys typed =>
    cases exact with
    | map h =>
      rw [Slot.depth, entriesDepth_le_iff] at deep
      exact Slot.Told.map wf.keys sorted keys fun e he =>
        ih List.mem_cons_self (typed e he) (h e he) (Nat.le_of_succ_le (deep e he))
  | unset name members => exact ⟨[], Slot.Told.unset⟩
  | @member name members f v mem typed =>
    cases exact with
    | member h =>
      rw [Slot.depth] at deep
      obtain ⟨j, hj, hmeans⟩ := ih (List.mem_map_of_mem mem) typed (h f mem rfl) deep
      exact ⟨_, Slot.Told.oneof mem wf.distinct apart hj hmeans⟩

/-! ## One message -/

namespace Slots

/-- Slots that are told apart by their names tell their content together. -/
theorem exists_told {ts : List (SlotType Ref)} {ss : List Slot}
    (apart : (ts.flatMap SlotType.names).Pairwise Apart)
    (h : List.Forall₂ (fun t s => ∃ es, Slot.Told S t s es) ts ss) : ∃ es, Told S ts ss es := by
  induction h with
  | nil => exact ⟨[], Told.nil⟩
  | cons hslot _ ih =>
    rw [List.flatMap_cons, List.pairwise_append] at apart
    obtain ⟨es, hslot⟩ := hslot
    obtain ⟨es', hrest⟩ := ih apart.2.1
    exact ⟨_, Told.cons hslot hrest apart.2.2⟩

/-- The object of the members, in the order of the field numbers, says what they say. -/
theorem Told.exists_object {ts : List (SlotType Ref)} {ss : List Slot} {es : List NumberedMember}
    (apart : (ts.flatMap SlotType.names).Pairwise Apart) (h : Told S ts ss es) :
    ∃ ms : Json.Members, gather (byNumber (slotMembers S ts ss)) [] = .ok (.object ms) ∧
      ms.TellsEach (ts.flatMap SlotType.names) es := by
  -- Sorting by number moves the members about, and what an object says does not depend on that.
  have hsort : byNumber (es.map NumberedMember.written) = (byNumber es).map fun e => (e.1, .ok e.2) := by
    unfold byNumber
    have hkeys : ∀ a ∈ es, ∀ b ∈ es, decide (a.1 ≤ b.1) = decide (a.written.1 ≤ b.written.1) :=
      fun _ _ _ _ => rfl
    rw [← List.map_mergeSort hkeys, List.map_map, List.map_map]
    rfl
  have hperm : (es.map (·.2)).Perm (byNumber es) := (List.mergeSort_perm es _).symm.map _
  have hnodup : ((es.map (·.2)).map (·.1)).Nodup := by
    rw [List.map_map]
    exact h.distinct
  have hsorted : ((([] : Json.Members) ++ byNumber es).map (·.1)).Nodup :=
    (hperm.map _).nodup_iff.1 hnodup
  refine ⟨byNumber es, ?_, ?_⟩
  · rw [h.written, hsort, gather_eq _ hsorted, List.nil_append]
  · intro p hp
    refine ⟨Json.Members.find?_perm hnodup hperm, ?_⟩
    intro hne
    apply Json.Members.find?_of_not_mem
    intro hmem
    -- Only JSON names are keys, and the JSON name of no other field is this name.
    obtain ⟨e, he, hkey⟩ := List.mem_map.1 (((hperm.symm.map _).mem_iff).1 hmem)
    obtain ⟨e, hes, rfl⟩ := List.mem_map.1 he
    obtain ⟨q, hq, hname⟩ := h.named e hes
    by_cases hsame : q = p
    · rw [hsame, hkey] at hname
      exact hne hname.symm
    · have happart := apart.forall hq hp hsame
      exact happart.2.1 (by rw [hname, hkey])

end Slots

/-- A message whose slots tell their content is read back from its object. -/
theorem Message.exists_json_of_slots {r : Ref} {m : Message} (apart : (S r).ToldApart)
    (shape : (S r).shape = .object)
    (h : List.Forall₂ (fun t s => ∃ es, Slot.Told S t s es) (S r).slots m) :
    ∃ j, Message.toJson S r m = .ok j ∧ j.Means S (.message r) (.message m) := by
  obtain ⟨es, htold⟩ := Slots.exists_told apart.fields h
  obtain ⟨ms, hgather, htells⟩ := htold.exists_object apart.fields
  refine ⟨.object ms, ?_, .message rfl ?_⟩
  · rw [Message.toJson, shape, shapeJson, hgather]
  · rw [Json.mergeInto, shape]
    exact htold.read ms htells

/-! ## Moments and durations -/

theorem Slot.HasType.exists_implicit {t : SlotType Ref} {s : Slot} {k : Scalar}
    (wire : t.implicitWire? = some k) (typed : Slot.HasType S t s) :
    ∃ x : k.Carrier, s = .implicit k x := by
  cases typed with
  | implicit f v =>
    cases wire
    exact ⟨v, rfl⟩
  | absent | present | repeated | map | unset | member => cases wire

theorem Message.eq_ofSecondsAndNanos {r : Ref} {m : Message}
    (parts : (S r).slots.map SlotType.implicitWire? = [some .int64, some .int32])
    (typed : Message.HasType S r m) :
    m = .ofSecondsAndNanos m.secondsAndNanos.1 m.secondsAndNanos.2 := by
  unfold Message.HasType at typed
  -- The type has two slots, so the message has two, and their types say what is in them.
  obtain ⟨t, rest, hslots, hseconds, hrest⟩ := List.map_eq_cons_iff.1 parts
  obtain ⟨u, rest', rfl, hnanos, hend⟩ := List.map_eq_cons_iff.1 hrest
  rw [List.map_eq_nil_iff.1 hend] at hslots
  rw [hslots] at typed
  cases typed with
  | cons hfirst hothers =>
    cases hothers with
    | cons hsecond hnone =>
      cases hnone
      obtain ⟨seconds, rfl⟩ := hfirst.exists_implicit hseconds
      obtain ⟨nanos, rfl⟩ := hsecond.exists_implicit hnanos
      rfl

/-- A moment or a duration in range is read back from its text. -/
theorem Message.exists_text {r : Ref} {m : Message} (shaped : (S r).WellShaped)
    (shape : (S r).shape ≠ .object) (typed : Message.HasType S r m)
    (admits : (S r).shape.Admits m) :
    ∃ j, Message.toJson S r m = .ok j ∧ j.Means S (.message r) (.message m) := by
  have hparts := Message.eq_ofSecondsAndNanos (shaped shape) typed
  cases hshape : (S r).shape with
  | object => exact absurd hshape shape
  | timestamp =>
    rw [hshape] at admits
    obtain ⟨s, hwrite, hread⟩ := Timestamp.ofText_toText admits
    refine ⟨.string s, ?_, .message rfl ?_⟩
    · rw [Message.toJson, hshape, shapeJson]
      simp only [hwrite, Except.mapError, Except.map]
    · rw [Json.mergeInto, hshape, mergeText, hread]
      exact congrArg _ hparts.symm
  | duration =>
    rw [hshape] at admits
    obtain ⟨s, hwrite, hread⟩ := Duration.ofText_toText admits
    refine ⟨.string s, ?_, .message rfl ?_⟩
    · rw [Message.toJson, hshape, shapeJson]
      simp only [hwrite, Except.map]
    · rw [Json.mergeInto, hshape, mergeText, hread]
      exact congrArg _ hparts.symm

/-! ## Any depth -/

/-- A message that JSON can say is written and read back if the values in it are. -/
theorem Message.exists_json_of_values {r : Ref} (wf : (S r).Coherent)
    (shaped : (S r).WellShaped) (apart : (S r).ToldApart) {m : Message} {n : Nat}
    (typed : Message.HasType S r m) (exact : Message.Exact S r m) (deep : Message.depth m ≤ n)
    (ih : ∀ {t : SlotType Ref} {u : FieldType Ref} {v : Value}, t ∈ (S r).slots → u ∈ t.types →
      v.HasType S u → v.Exact S u → v.depth ≤ n → ∃ j, v.toJson S u = .ok j ∧ j.Means S u v) :
    ∃ j, Message.toJson S r m = .ok j ∧ j.Means S (.message r) (.message m) := by
  -- Moments and durations are written as texts and have no members.
  by_cases hshape : (S r).shape = .object
  · apply Message.exists_json_of_slots apart hshape
    have hnames := (List.pairwise_flatMap.1 apart.fields).1
    rw [List.forall₂_iff_zip]
    refine ⟨typed.length_eq, fun {t s} hzip => ?_⟩
    have hmem := (List.of_mem_zip hzip).1
    exact Slot.exists_told (wf.slot hmem) (hnames t hmem) (apart.enums t hmem)
      ((List.forall₂_iff_zip.1 typed).2 hzip) ((List.forall₂_iff_zip.1 exact.2).2 hzip)
      (Message.depth_le_iff.1 deep s (List.of_mem_zip hzip).2) (ih hmem)
  · exact Message.exists_text shaped hshape typed exact.1

theorem PlainType.exists_json {t : PlainType} {x : t.wire.Carrier} (distinct : t.hasDistinctNames)
    (exact : Value.Exact S (.plain t) (.scalar t.wire x)) :
    ∃ j, (Value.scalar t.wire x).toJson S (.plain t) = .ok j ∧
      j.Means S (.plain t) (.scalar t.wire x) := by
  rw [Value.toJson, PlainType.valueToJson_self]
  cases exact with
  | plain h => exact ⟨_, rfl, PlainType.means_toJson distinct h⟩

/-- A message that JSON can say is written, and read back from what was written. -/
theorem Message.exists_json_of_depth (wf : S.Coherent) (shaped : S.WellShaped) {n : Nat} {r : Ref}
    {m : Message} (apart : ∀ q, S.Reaches r q → (S q).ToldApart) (typed : Message.HasType S r m)
    (exact : Message.Exact S r m) (deep : Message.depth m ≤ n) :
    ∃ j, Message.toJson S r m = .ok j ∧ j.Means S (.message r) (.message m) := by
  -- The induction is on the depth: a message in the message is written before the message is.
  induction n using Nat.strong_induction_on generalizing r m with
  | _ n ih =>
    refine exists_json_of_values (wf r) (shaped r) (apart r (.self r)) typed exact deep
      fun {t u v} slot type typed exact hv => ?_
    cases typed with
    | plain t x => exact PlainType.exists_json ((apart r (.self r)).enums _ slot _ type) exact
    | @message q part typed =>
      rw [Value.depth_message] at hv
      rw [Value.toJson, ← Message.toJson]
      exact ih (Message.depth part) (by omega) (fun p reach => apart p (.part slot type reach)) typed
        exact.of_message (Nat.le_refl _)

/-- A message that JSON can say is written, and what was written, merged into a message of
    which nothing is set, gives it back, if the types that it is made of are told apart by
    their names. -/
theorem Message.exists_json (wf : S.Coherent) (shaped : S.WellShaped) {r : Ref} {m : Message}
    (apart : ∀ q, S.Reaches r q → (S q).ToldApart) (typed : Message.HasType S r m)
    (exact : Message.Exact S r m) :
    ∃ j, Message.toJson S r m = .ok j ∧ Message.mergeJson S r j (S r).default = (.ok (), m) := by
  obtain ⟨j, hj, hmeans⟩ :=
    Message.exists_json_of_depth wf shaped apart typed exact (Nat.le_refl _)
  cases hmeans with
  | message _ h => exact ⟨j, hj, h⟩

end Protobuf
