import Protobuf.Proofs.Binary.Step
import Protobuf.Proofs.Json.Presence
import Protobuf.Proofs.Steps

/-! # Messages in messages, in both formats

Each message in a message is written in the object of that message, and its bytes are among
the bytes.

* `Message.Within`, `Json.PartOf`: messages in a message, and values in a JSON value.
* `Slot.Holds.exists_emission`, `Slot.Holds.exists_member`: a value in a slot is written in what
  the slot emits.
* `Message.Within.exists_json`: a message in a message that was written.
-/

namespace Protobuf

variable {Ref : Type} {S : Schema Ref}

/-- A value that a slot of a type holds. -/
inductive Slot.Holds : SlotType Ref → Slot → FieldType Ref → Value → Prop
  | optional (f : Field (FieldType Ref)) (v : Value) :
      Slot.Holds (.optional f) (.optional (some v)) f.type v
  | element (f : Field (FieldType Ref)) {vs : List Value} {v : Value} (h : v ∈ vs) :
      Slot.Holds (.repeated f) (.repeated vs) f.type v
  | entry (key : Scalar) (f : Field (FieldType Ref)) {entries : List (MapKey × Value)}
      {e : MapKey × Value} (h : e ∈ entries) : Slot.Holds (.map key f) (.map entries) f.type e.2
  | member (name : String) {members : List (Field (FieldType Ref))} {f : Field (FieldType Ref)}
      (v : Value) (h : f ∈ members) :
      Slot.Holds (.oneof name members) (.oneof (some (f.number, v))) f.type v

/-- A message of one type in a message of another, however deep, or the message itself. -/
inductive Message.Within (S : Schema Ref) : Ref → Message → Ref → Message → Prop
  | self (r : Ref) (m : Message) : Message.Within S r m r m
  | part {r q p : Ref} {m part inner : Message} {t : SlotType Ref} {s : Slot}
      (mem : (t, s) ∈ (S r).slots.zip m) (holds : Slot.Holds t s (.message q) (.message part))
      (rest : Message.Within S q part p inner) : Message.Within S r m p inner

inductive Json.PartOf : Json → Json → Prop
  | self (j : Json) : Json.PartOf j j
  | item {j item : Json} {items : List Json} (h : item ∈ items) (rest : Json.PartOf j item) :
      Json.PartOf j (.array items)
  | member {j v : Json} {key : String} {members : Json.Members} (h : (key, v) ∈ members)
      (rest : Json.PartOf j v) : Json.PartOf j (.object members)

/-- What holds of a value if it holds of its items or members holds of all values. -/
@[elab_as_elim]
theorem Json.induction {P : Json → Prop} (null : P .null) (bool : ∀ b, P (.bool b))
    (number : ∀ n, P (.number n)) (string : ∀ s, P (.string s))
    (array : ∀ items, (∀ v ∈ items, P v) → P (.array items))
    (object : ∀ members : Members, (∀ e ∈ members, P e.2) → P (.object members)) (v : Json) : P v :=
  @Json.rec P (fun items => ∀ v ∈ items, P v) (fun members => ∀ e ∈ members, P e.2) (fun e => P e.2)
    null bool number string array object (by simp)
    (fun _ _ hv hrest => List.forall_mem_cons.2 ⟨hv, hrest⟩) (by simp)
    (fun _ _ he hrest => List.forall_mem_cons.2 ⟨he, hrest⟩) (fun _ _ h => h) v

theorem Json.PartOf.trans {i j k : Json} (hij : i.PartOf j) (hjk : j.PartOf k) : i.PartOf k := by
  induction hjk with
  | self => exact hij
  | item h _ ih => exact .item h ih
  | member h _ ih => exact .member h ih

theorem Slot.Holds.hasType {t : SlotType Ref} {s : Slot} {u : FieldType Ref} {v : Value}
    (h : Slot.Holds t s u v) (distinct : t.numbers.Nodup) (typed : Slot.HasType S t s) :
    Value.HasType S u v := by
  cases h with
  | optional f v =>
    cases typed with
    | present hv => exact hv
  | element f hv =>
    cases typed with
    | repeated hvs => exact hvs _ hv
  | entry key f he =>
    cases typed with
    | map _ _ values => exact values _ he
  | member name v mem => exact typed.member_of_find? distinct (find?_of_nodup distinct mem)

/-- The bytes of a message in a slot are among those that the slot emits. -/
theorem Slot.Holds.exists_emission {t : SlotType Ref} {s : Slot} {q : Ref} {part : Message}
    (h : Slot.Holds t s (.message q) (.message part)) (distinct : t.numbers.Nodup) :
    ∃ e ∈ Slot.emissions S t s, (Message.encode S q part).length ≤ e.bytes.length := by
  have hvalue : ∀ number, (Message.encode S q part).length ≤
      ((Value.message part).emission S (.message q) number).bytes.length := by
    intro number
    rw [Value.emission, Value.payload_message]
    exact Nat.le_trans (length_le_delimit _) (Record.length_payload_le_keyed _ _ _)
  generalize hu : FieldType.message q = u at h
  generalize hv : Value.message part = v at h hvalue
  cases h with
  | optional f v =>
    exact ⟨_, List.mem_singleton_self _, hu ▸ hvalue f.number⟩
  | @element f vs v mem =>
    refine ⟨_, ?_, hvalue f.number⟩
    rw [Slot.emissions, ← hu]
    exact List.mem_map_of_mem mem
  | @entry key f entries e mem =>
    refine ⟨_, List.mem_map_of_mem mem, Nat.le_trans (hvalue 2) ?_⟩
    rw [hu]
    have hentry : entryBytes S key f.type e = keyed 1 key.wireType (key.put (e.1.toScalar key)) ++
        (e.2.emission S f.type 2).bytes := rfl
    refine Nat.le_trans ?_ (Record.length_payload_le_keyed _ _ _)
    refine Nat.le_trans ?_ (length_le_delimit _)
    rw [hentry, List.length_append]
    exact Nat.le_add_left _ _
  | @member name members f v mem =>
    refine ⟨_, ?_, hvalue f.number⟩
    rw [Slot.emissions, find?_of_nodup distinct mem, hu]
    exact List.mem_singleton_self _

theorem elementsJson_ok {t : FieldType Ref} {vs : List Value} {items : List Json}
    (h : elementsJson S t vs = .ok items) {v : Value} (hv : v ∈ vs) :
    ∃ j ∈ items, v.toJson S t = .ok j := by
  induction vs generalizing items with
  | nil => cases hv
  | cons w rest ih =>
    rw [elementsJson] at h
    split at h
    · cases h
    · rename_i j hj
      obtain ⟨js, hrest, rfl⟩ := map_eq_ok.1 h
      rcases List.mem_cons.1 hv with rfl | hv
      · exact ⟨j, List.mem_cons_self, hj⟩
      · obtain ⟨j', hj', hread⟩ := ih hrest hv
        exact ⟨j', List.mem_cons_of_mem _ hj', hread⟩

/-- Entries whose keys are written differently are all in the object. -/
theorem entriesJson_ok {t : FieldType Ref} {entries : List (MapKey × Value)}
    {acc ms : Json.Members} (h : entriesJson S t entries acc = .ok ms)
    (distinct : (acc.map (·.1) ++ entries.map (·.1.toText)).Nodup) :
    (∀ p ∈ acc, p ∈ ms) ∧ ∀ e ∈ entries, ∃ j, e.2.toJson S t = .ok j ∧ (e.1.toText, j) ∈ ms := by
  induction entries generalizing acc with
  | nil =>
    cases h
    exact ⟨fun _ hp => hp, fun _ he => by cases he⟩
  | cons e rest ih =>
    obtain ⟨k, v⟩ := e
    rw [entriesJson] at h
    split at h
    · cases h
    · rename_i j hj
      -- The key is new, so the member goes behind those that were written so far.
      have hnew : k.toText ∉ acc.map (·.1) := fun hmem =>
        (List.nodup_append.1 distinct).2.2 _ hmem _ List.mem_cons_self rfl
      have hrest : ((acc ++ [(k.toText, j)]).map (·.1) ++ rest.map (·.1.toText)).Nodup := by
        simpa using distinct
      rw [Json.Members.insert_of_not_mem hnew] at h
      obtain ⟨hkept, hall⟩ := ih h hrest
      refine ⟨fun p hp => hkept p (List.mem_append_left _ hp), fun e he => ?_⟩
      rcases List.mem_cons.1 he with rfl | he
      · exact ⟨j, hj, hkept _ (List.mem_append_right _ List.mem_cons_self)⟩
      · exact hall e he

/-- What a value in a slot is written as is part of the member that the slot has. -/
theorem Slot.Holds.exists_member {t : SlotType Ref} {s : Slot} {u : FieldType Ref} {v : Value}
    (h : Slot.Holds t s u v) (wf : t.Coherent) (typed : Slot.HasType S t s) :
    ∃ e ∈ Slot.members S t s, ∀ said, e.2.2 = .ok said →
      ∃ j, v.toJson S u = .ok j ∧ j.PartOf said := by
  cases h with
  | optional f v => exact ⟨_, List.mem_singleton_self _, fun said h => ⟨said, h, .self said⟩⟩
  | @element f vs v mem =>
    refine ⟨(f.number, f.jsonName, (elementsJson S f.type vs).map .array), ?_, fun said h => ?_⟩
    · rw [Slot.members, if_neg (by simpa using List.ne_nil_of_mem mem)]
      exact List.mem_singleton_self _
    · obtain ⟨items, hitems, rfl⟩ := map_eq_ok.1 h
      obtain ⟨j, hj, hread⟩ := elementsJson_ok hitems mem
      exact ⟨j, hread, .item hj (.self j)⟩
  | @entry key f entries e mem =>
    refine ⟨(f.number, f.jsonName, (entriesJson S f.type entries []).map .object), ?_,
      fun said h => ?_⟩
    · rw [Slot.members, if_neg (by simpa using List.ne_nil_of_mem mem)]
      exact List.mem_singleton_self _
    · cases typed with
      | map sorted keys values =>
        obtain ⟨ms, hms, rfl⟩ := map_eq_ok.1 h
        obtain ⟨-, hall⟩ := entriesJson_ok hms (nodup_toText wf.keys sorted keys)
        obtain ⟨j, hread, hj⟩ := hall e mem
        exact ⟨j, hread, .member hj (.self j)⟩
  | @member name members f v mem =>
    refine ⟨(f.number, f.jsonName, v.toJson S f.type), ?_, fun said h => ⟨said, h, .self said⟩⟩
    rw [Slot.members, find?_of_nodup wf.distinct mem]
    exact List.mem_singleton_self _

theorem length_emission_le {r : Ref} {m : Message} {e : Emission}
    (he : e ∈ messageEmissions S r m) : e.bytes.length ≤ (Message.encode S r m).length := by
  rw [Message.encode_eq]
  exact (List.sublist_flatten_of_mem (List.mem_map_of_mem he)).length_le

theorem mem_slotMembers {ts : List (SlotType Ref)} {ss : List Slot} {t : SlotType Ref} {s : Slot}
    (mem : (t, s) ∈ ts.zip ss) {e : Nat × (String × Except EncodeFault Json)}
    (he : e ∈ Slot.members S t s) : e ∈ slotMembers S ts ss := by
  induction ts generalizing ss with
  | nil => cases mem
  | cons t' ts ih =>
    cases ss with
    | nil => cases mem
    | cons s' ss =>
      rw [slotMembers, List.mem_append]
      rcases List.mem_cons.1 mem with heq | mem
      · cases heq
        exact .inl he
      · exact .inr (ih mem)

/-- Moments and durations have no slots that hold values of other types. -/
theorem Slot.Holds.shape_eq {r : Ref} {m : Message} {t : SlotType Ref} {s : Slot}
    {u : FieldType Ref} {v : Value} (shaped : (S r).WellShaped) (mem : (t, s) ∈ (S r).slots.zip m)
    (h : Slot.Holds t s u v) : (S r).shape = .object := by
  by_contra hshape
  have hwire : t.implicitWire? ∈ (S r).slots.map SlotType.implicitWire? :=
    List.mem_map_of_mem (List.of_mem_zip mem).1
  rw [shaped hshape] at hwire
  have hnone : t.implicitWire? = none := by
    cases h <;> rfl
  simp [hnone] at hwire

/-- The type of a value that a slot holds is one of those of its fields. -/
theorem Slot.Holds.type_mem {t : SlotType Ref} {s : Slot} {u : FieldType Ref} {v : Value}
    (h : Slot.Holds t s u v) : u ∈ t.types := by
  cases h with
  | optional f v => exact List.mem_singleton_self _
  | element f h => exact List.mem_singleton_self _
  | entry key f h => exact List.mem_singleton_self _
  | member name v h => exact List.mem_map_of_mem h

/-! ## One message in another -/

section

variable {r q : Ref} {m part : Message} {t : SlotType Ref} {s : Slot} {j : Json}
  (wf : (S r).Coherent) (mem : (t, s) ∈ (S r).slots.zip m)
  (holds : Slot.Holds t s (.message q) (.message part)) (typed : Message.HasType S r m)

include wf mem holds typed

/-- A message in a message is of its type, and no longer than the other in bytes. -/
theorem Slot.Holds.hasType_part : Message.HasType S q part ∧
    (Message.encode S q part).length ≤ (Message.encode S r m).length := by
  have hwf := wf.slot (List.of_mem_zip mem).1
  constructor
  · cases holds.hasType hwf.distinct (List.forall₂_zip typed mem) with
    | message hpart => exact hpart
  · obtain ⟨e, he, hle⟩ := holds.exists_emission (S := S) hwf.distinct
    rw [← filter_messageEmissions wf.distinct mem] at he
    exact Nat.le_trans hle (length_emission_le (List.mem_filter.1 he).1)

/-- A message in a message that was written is written. -/
theorem Slot.Holds.exists_json (shaped : (S r).WellShaped) (h : Message.toJson S r m = .ok j) :
    ∃ i, Message.toJson S q part = .ok i ∧ ((S r).HasDistinctJsonNames → i.PartOf j) := by
  have hslot := List.forall₂_zip typed mem
  have hshape := holds.shape_eq shaped mem
  obtain ⟨e, he, hsaid⟩ := holds.exists_member (wf.slot (List.of_mem_zip mem).1) hslot
  obtain ⟨es, hperm, -, -⟩ :=
    Message.exists_gathered wf hshape (forall_presence wf typed) h
  -- The member of the slot was written, and it is one of the object if it is not written over.
  obtain ⟨n, hn, rfl⟩ := List.mem_map.1 (hperm.mem_iff.1 (mem_slotMembers mem he))
  obtain ⟨i, hi, hpart⟩ := hsaid _ rfl
  rw [Value.toJson, ← Message.toJson] at hi
  refine ⟨i, hi, fun distinct => ?_⟩
  obtain ⟨es', hperm', rfl⟩ :=
    Message.exists_members wf distinct hshape (forall_presence wf typed) h
  obtain ⟨n', hn', heq⟩ := List.mem_map.1 (hperm'.mem_iff.1 (mem_slotMembers mem he))
  obtain ⟨-, hmember⟩ := Prod.mk.inj heq
  obtain ⟨-, hvalue⟩ := Prod.mk.inj hmember
  rw [← Except.ok.inj hvalue] at hpart
  exact .member (List.mem_map_of_mem hn') hpart

end

/-- Each message in a message that was written is written, as part of it if no two fields of a
    type on the way have one JSON name, and shows the fields that its bytes show if it is
    written as an object. -/
theorem Message.Within.exists_json (wf : S.WellFormed) (shaped : S.WellShaped) {r q : Ref}
    {m inner : Message} (within : Message.Within S r m q inner) {j : Json}
    (typed : Message.HasType S r m) (fits : (Message.encode S r m).Addressable)
    (h : Message.toJson S r m = .ok j) :
    ∃ i, Message.toJson S q inner = .ok i ∧
      ((S q).shape = .object → Message.Shows S q inner i) ∧
      S.Reaches r q ∧ ((∀ p, S.Reaches r p → (S p).HasDistinctJsonNames) → i.PartOf j) := by
  induction within generalizing j with
  | self r m =>
    exact ⟨j, h, fun shape => Message.shows (wf r) shape typed fits h, .self r, fun _ => .self j⟩
  | @part r q p m part inner t s mem holds _ ih =>
    obtain ⟨hpart, hle⟩ := holds.hasType_part (wf r).toCoherent mem typed
    obtain ⟨i, hi, hij⟩ := holds.exists_json (wf r).toCoherent mem typed (shaped r) h
    obtain ⟨k, hk, hshows, reach, hki⟩ := ih hpart (fits.of_length_le hle) hi
    have further : ∀ {p}, S.Reaches q p → S.Reaches r p :=
      .part (List.of_mem_zip mem).1 holds.type_mem
    exact ⟨k, hk, hshows, further reach, fun distinct =>
      (hki fun p hp => distinct p (further hp)).trans (hij (distinct r (.self r)))⟩

end Protobuf
