import Protobuf.Proofs.Json.Values

/-! # Slots in JSON

Each slot emits the members that an object needs to tell its content, and from an object
that tells of each field of a slot what the slot emits, and nothing else, the content is
read back.

* `Slot.Told`, `Slots.Told`: members that tell the content of a slot, and of slots.
* `MemberReader.choose_none`, `MemberReader.choose_member`: the members of a oneof.
* `Slot.Told.implicit`, `Slot.Told.optional`, `Slot.Told.repeated`, `Slot.Told.map`,
  `Slot.Told.oneof`: slots of each form.
* `Slots.Told.cons`: slots that are told apart by their names.
-/

namespace Protobuf

variable {Ref : Type} {S : Schema Ref}

abbrev NumberedMember := Nat × (String × Json)

def NumberedMember.written (e : NumberedMember) : Nat × (String × Except EncodeFault Json) :=
  (e.1, e.2.1, .ok e.2.2)

/-- An object that says of the fields of slots what some members say, and nothing else. -/
def Json.Members.TellsEach (ms : Json.Members) (names : List (String × String))
    (es : List NumberedMember) : Prop :=
  ∀ p ∈ names, ms.Tells p.1 p.2 (Json.Members.find? (es.map (·.2)) p.1)

/-- Members that tell the content of slots: they are what is written, they are written
    under the names of the slots, and the content is read from any object that says what
    they say. -/
structure Slots.Told (S : Schema Ref) (ts : List (SlotType Ref)) (ss : List Slot)
    (es : List NumberedMember) : Prop where
  written : slotMembers S ts ss = es.map NumberedMember.written
  named : ∀ e ∈ es, ∃ p ∈ ts.flatMap SlotType.names, p.1 = e.2.1
  distinct : (es.map (·.2.1)).Nodup
  read : ∀ ms : Json.Members, ms.TellsEach (ts.flatMap SlotType.names) es →
    mergeSlots S (.ofMembers S ms) ms ts (ts.map SlotType.default) = (.ok (), ss)

/-! ## One field -/

structure Slot.Told (S : Schema Ref) (t : SlotType Ref) (s : Slot) (es : List NumberedMember) :
    Prop where
  written : Slot.members S t s = es.map NumberedMember.written
  named : ∀ e ∈ es, ∃ p ∈ t.names, p.1 = e.2.1
  single : es.length ≤ 1
  read : ∀ ms : Json.Members, ms.TellsEach t.names es →
    t.default.mergeObject S (.ofMembers S ms) ms t = (.ok (), s)

theorem mergeNamed_none {τ : Type} {f : Field τ} {ms : Json.Members} {s : Slot}
    {use : String → Json → Except DecodeError Unit × Slot}
    (h : ms.Tells f.jsonName f.protoName none) : mergeNamed ms f s use = (.ok (), s) := by
  unfold mergeNamed
  rw [h.field?_none]

theorem mergeNamed_some {τ : Type} {f : Field τ} {j : Json} {ms : Json.Members} {s : Slot}
    {use : String → Json → Except DecodeError Unit × Slot}
    (h : ms.Tells f.jsonName f.protoName (some j)) (present : j.isNull = false) :
    mergeNamed ms f s use = use f.jsonName j := by
  unfold mergeNamed
  rw [h.field?_some present]

namespace Slot

theorem Told.of_default {τ : Type} {f : Field τ} {t : SlotType Ref} (names : t.names = [f.names])
    (written : Slot.members S t t.default = [])
    (read : ∀ ms : Json.Members, ms.Tells f.jsonName f.protoName none →
      t.default.mergeObject S (.ofMembers S ms) ms t = (.ok (), t.default)) :
    Told S t t.default [] where
  written := written
  named _ he := by cases he
  single := Nat.zero_le 1
  read ms htells := read ms (htells f.names (by rw [names]; exact List.mem_cons_self))

theorem Told.of_member {τ : Type} {f : Field τ} {t : SlotType Ref} {s : Slot} {j : Json}
    (names : t.names = [f.names])
    (written : Slot.members S t s = [(f.number, f.jsonName, .ok j)])
    (read : ∀ ms : Json.Members, ms.Tells f.jsonName f.protoName (some j) →
      t.default.mergeObject S (.ofMembers S ms) ms t = (.ok (), s)) :
    Told S t s [(f.number, f.jsonName, j)] where
  written := written
  named e he := ⟨f.names, by rw [names]; exact List.mem_cons_self,
    by rw [List.mem_singleton.1 he]; rfl⟩
  single := Nat.le_refl 1
  read ms htells := by
    have hfield := htells f.names (by rw [names]; exact List.mem_cons_self)
    exact read ms (by simpa [Field.names, Json.Members.find?] using hfield)

theorem Told.implicit {f : Field PlainType} (distinct : f.type.hasDistinctNames)
    {x : f.type.wire.Carrier} (h : f.type.wire.Exact x) :
    ∃ es, Told S (.implicit f) (.implicit f.type.wire x) es := by
  by_cases hdefault : x = f.type.wire.default
  · -- The default is not written: nothing says it.
    subst hdefault
    exact ⟨[], Told.of_default rfl (if_pos rfl) fun ms htells => mergeNamed_none htells⟩
  · refine ⟨[(f.number, f.jsonName, f.type.toJson x)], Told.of_member rfl ?_ fun ms htells => ?_⟩
    · rw [Slot.members, if_neg hdefault, PlainType.valueToJson_self]
    · rw [SlotType.default, Slot.mergeObject,
        mergeNamed_some htells (PlainType.isNull_toJson f.type x),
        PlainType.ofJson_toJson distinct h]

theorem Told.optional {f : Field (FieldType Ref)} {v : Value} {j : Json}
    (hj : v.toJson S f.type = .ok j) (hmeans : j.Means S f.type v) :
    Told S (.optional f) (.optional (some v)) [(f.number, f.jsonName, j)] := by
  refine Told.of_member rfl ?_ fun ms htells => ?_
  · rw [Slot.members, hj]
  · rw [SlotType.default, Slot.mergeObject, mergeNamed_some htells hmeans.present]
    obtain ⟨number, protoName, jsonName, type⟩ := f
    cases hmeans with
    | plain _ h => simp only [h]
    | message _ h =>
      -- There is no sub-message yet, so the value is merged into a new one.
      simp only [MemberReader.ofMembers, Json.mergeMember_of_find? htells.json, Option.map_none,
        Option.getD_none, h]

theorem Told.repeated {f : Field (FieldType Ref)} {vs : List Value}
    (h : ∀ v ∈ vs, ∃ j, v.toJson S f.type = .ok j ∧ j.Means S f.type v) :
    ∃ es, Told S (.repeated f) (.repeated vs) es := by
  -- An empty list is not written: it is the default.
  cases vs with
  | nil => exact ⟨[], Told.of_default rfl rfl fun ms htells => mergeNamed_none htells⟩
  | cons v rest =>
    obtain ⟨items, hitems, heach⟩ := elementsJson_eq h
    refine ⟨[(f.number, f.jsonName, .array items)], Told.of_member rfl ?_ fun ms htells => ?_⟩
    · rw [Slot.members, hitems]
      rfl
    · rw [SlotType.default, Slot.mergeObject, mergeNamed_some htells rfl]
      simp only [MemberReader.list_eq htells.json heach, List.nil_append]

theorem Told.map {f : Field (FieldType Ref)} {key : Scalar} (hkey : key.isKey)
    {entries : List (MapKey × Value)} (sorted : MapEntries.Sorted entries)
    (keys : ∀ e ∈ entries, e.1.HasKind key)
    (h : ∀ e ∈ entries, ∃ j, e.2.toJson S f.type = .ok j ∧ j.Means S f.type e.2) :
    ∃ es, Told S (.map key f) (.map entries) es := by
  by_cases hempty : entries = []
  · subst hempty
    exact ⟨[], Told.of_default rfl rfl fun ms htells => mergeNamed_none htells⟩
  · have hnodup : (([] : Json.Members).map (·.1) ++ entries.map (·.1.toText)).Nodup :=
      nodup_toText hkey sorted keys
    obtain ⟨members, hmembers, heach⟩ := entriesJson_eq hkey keys h hnodup
    refine ⟨[(f.number, f.jsonName, .object members)], Told.of_member rfl ?_ fun ms htells => ?_⟩
    · rw [Slot.members, if_neg (by simpa using hempty), hmembers]
      rfl
    · rw [SlotType.default, Slot.mergeObject, mergeNamed_some htells rfl]
      -- The entries are read in their order, so each is put behind those before it.
      simp only [MemberReader.entryList_eq htells.json heach,
        @MapEntries.insertAll_of_sorted Value entries [] sorted, List.nil_append]

end Slot

/-! ## Oneofs -/

namespace MemberReader

variable {ms : Json.Members} {name : String} {fields : List (Field (FieldType Ref))}

/-- Members of which nothing is said change nothing. -/
theorem choose_none {reader : MemberReader Ref} {choice : Option (Nat × Value)}
    (h : ∀ f ∈ fields, ms.Tells f.jsonName f.protoName none) :
    choose S reader ms name fields choice = .ok choice := by
  induction fields with
  | nil => rfl
  | cons f rest ih =>
    have htells := h f List.mem_cons_self
    rw [choose, htells.field?_none]
    exact ih fun g hg => h g (List.mem_cons_of_mem _ hg)

theorem tells_other {f g : Field (FieldType Ref)} {j : Json} (apart : Apart f.names g.names)
    (h : ms.TellsEach (fields.map Field.names) [(f.number, f.jsonName, j)]) (hg : g ∈ fields) :
    ms.Tells g.jsonName g.protoName none := by
  have htells := h g.names (List.mem_map_of_mem hg)
  have hne : f.jsonName ≠ g.jsonName := apart.1
  simpa [Field.names, Json.Members.find?, hne] using htells

theorem choose_member {f : Field (FieldType Ref)} {v : Value} {j : Json} (mem : f ∈ fields)
    (apart : (fields.map Field.names).Pairwise Apart) (hmeans : j.Means S f.type v)
    (h : ms.TellsEach (fields.map Field.names) [(f.number, f.jsonName, j)]) :
    choose S (ofMembers S ms) ms name fields none = .ok (some (f.number, v)) := by
  induction fields with
  | nil => cases mem
  | cons g rest ih =>
    obtain ⟨hfirst, hrest⟩ := List.pairwise_cons.1 apart
    rcases List.mem_cons.1 mem with rfl | hmem
    · -- The member itself is chosen, and those behind it leave the choice alone.
      have hself := h f.names List.mem_cons_self
      have htells : ms.Tells f.jsonName f.protoName (some j) := by
        simpa [Field.names, Json.Members.find?] using hself
      rw [choose, htells.field?_some hmeans.present]
      simp only [Option.isSome_none, Bool.false_eq_true, if_false, fresh_eq htells.json hmeans]
      exact choose_none fun g hg =>
        tells_other (hfirst _ (List.mem_map_of_mem hg)) h (List.mem_cons_of_mem _ hg)
    · have happart := (hfirst _ (List.mem_map_of_mem hmem)).symm
      rw [choose, (tells_other happart h List.mem_cons_self).field?_none]
      exact ih hmem hrest fun p hp => h p (List.mem_cons_of_mem _ hp)

end MemberReader

namespace Slot

variable {name : String} {fields : List (Field (FieldType Ref))}

theorem Told.unset : Told S (.oneof name fields) (.oneof none) [] where
  written := rfl
  named _ he := by cases he
  single := Nat.zero_le 1
  read ms htells := by
    have hnone : MemberReader.choose S (.ofMembers S ms) ms name fields none = .ok none :=
      MemberReader.choose_none fun f hf => htells f.names (List.mem_map_of_mem hf)
    rw [SlotType.default, Slot.mergeObject, hnone]

theorem Told.oneof {f : Field (FieldType Ref)} {v : Value} {j : Json} (mem : f ∈ fields)
    (distinct : (fields.map (·.number)).Nodup) (apart : (fields.map Field.names).Pairwise Apart)
    (hj : v.toJson S f.type = .ok j) (hmeans : j.Means S f.type v) :
    Told S (.oneof name fields) (.oneof (some (f.number, v))) [(f.number, f.jsonName, j)] where
  written := by
    simp only [Slot.members, find?_of_nodup distinct mem, hj]
    rfl
  named e he := ⟨f.names, List.mem_map_of_mem mem, by rw [List.mem_singleton.1 he]; rfl⟩
  single := Nat.le_refl 1
  read ms htells := by
    rw [SlotType.default, Slot.mergeObject, MemberReader.choose_member mem apart hmeans htells]

end Slot

/-! ## All slots -/

namespace Json.Members.TellsEach

variable {ms : Json.Members} {names names' : List (String × String)} {es es' : List NumberedMember}

theorem left (h : ms.TellsEach (names ++ names') (es ++ es'))
    (apart : ∀ p ∈ names, ∀ e ∈ es', p.1 ≠ e.2.1) : ms.TellsEach names es := by
  intro p hp
  have hnew : p.1 ∉ (es'.map (·.2)).map (·.1) := by
    rw [List.map_map, List.mem_map]
    rintro ⟨e, he, heq⟩
    exact apart p hp e he heq.symm
  have htells := h p (List.mem_append_left _ hp)
  rwa [List.map_append, find?_append_left hnew] at htells

theorem right (h : ms.TellsEach (names ++ names') (es ++ es'))
    (apart : ∀ p ∈ names', ∀ e ∈ es, p.1 ≠ e.2.1) : ms.TellsEach names' es' := by
  intro p hp
  have hnew : p.1 ∉ (es.map (·.2)).map (·.1) := by
    rw [List.map_map, List.mem_map]
    rintro ⟨e, he, heq⟩
    exact apart p hp e he heq.symm
  have htells := h p (List.mem_append_right _ hp)
  rwa [List.map_append, find?_append_right hnew] at htells

end Json.Members.TellsEach

namespace Slots

theorem Told.nil : Told S [] [] [] where
  written := rfl
  named _ he := by cases he
  distinct := List.nodup_nil
  read _ _ := rfl

/-- A slot in front of slots that it is told apart from. -/
theorem Told.cons {t : SlotType Ref} {ts : List (SlotType Ref)} {s : Slot} {ss : List Slot}
    {es es' : List NumberedMember} (h : Slot.Told S t s es) (hrest : Told S ts ss es')
    (apart : ∀ p ∈ t.names, ∀ q ∈ ts.flatMap SlotType.names, Apart p q) :
    Told S (t :: ts) (s :: ss) (es ++ es') where
  written := by rw [slotMembers, h.written, hrest.written, List.map_append]
  named e he := by
    rw [List.flatMap_cons]
    rcases List.mem_append.1 he with he | he
    · obtain ⟨p, hp, heq⟩ := h.named e he
      exact ⟨p, List.mem_append_left _ hp, heq⟩
    · obtain ⟨p, hp, heq⟩ := hrest.named e he
      exact ⟨p, List.mem_append_right _ hp, heq⟩
  distinct := by
    -- One slot has one member at most, and two slots share no name.
    have hone : (es.map (·.2.1)).Nodup := by
      have hlength := h.single
      match es, hlength with
      | [], _ => exact List.nodup_nil
      | [e], _ => exact List.nodup_singleton _
    rw [List.map_append, List.nodup_append]
    refine ⟨hone, hrest.distinct, ?_⟩
    intro a ha b hb heq
    obtain ⟨e, he, rfl⟩ := List.mem_map.1 ha
    obtain ⟨e', he', rfl⟩ := List.mem_map.1 hb
    obtain ⟨p, hp, hpe⟩ := h.named e he
    obtain ⟨q, hq, hqe⟩ := hrest.named e' he'
    exact (apart p hp q hq).1 (by rw [hpe, hqe, heq])
  read ms htells := by
    rw [List.flatMap_cons] at htells
    have hfirst := h.read ms <| htells.left fun p hp e he heq => by
      obtain ⟨q, hq, hqe⟩ := hrest.named e he
      exact (apart p hp q hq).1 (by rw [heq, hqe])
    have hothers := hrest.read ms <| htells.right fun q hq e he heq => by
      obtain ⟨p, hp, hpe⟩ := h.named e he
      exact (apart p hp q hq).1 (by rw [heq, hpe])
    rw [List.map_cons, mergeSlots, hfirst]
    simp only [hothers]

end Slots

end Protobuf
