import Mathlib.Data.List.Pairwise
import Protobuf.Proofs.Json.Alike
import Protobuf.Proofs.Json.Nesting

/-! # Edits that do not matter

What an object says of a message stays the same when a field is given under its other
name, when a member is added that no field claims or that is `null`, and when the
members change places; and so does what it says of the messages in that message.

* `MessageType.Edit`: the edits of one object.
* `Json.Edited`: a value with one edit somewhere in it.
* `MessageType.Edit.foundAlike`: an edit of an object leaves what is found in it.
* `Json.Edited.mergeInto`: an edited value is merged like the one it was.
-/

namespace Protobuf

variable {Ref : Type}

def Json.HasDistinctKeys (v : Json) : Prop :=
  ∀ ms : Json.Members, (Json.object ms).PartOf v → (ms.map (·.1)).Nodup

def Field.HasName {τ : Type} (f : Field τ) (key : String) : Prop :=
  key = f.jsonName ∨ key = f.protoName

instance {τ : Type} (f : Field τ) (key : String) : Decidable (f.HasName key) :=
  inferInstanceAs (Decidable (_ ∨ _))

namespace MessageType

/-- The key is a name of one field of the type: what stands under it is the value of that
    field and of no other. -/
structure Names (T : MessageType Ref) (key : String) (t : SlotType Ref)
    (f : Field (FieldType Ref)) : Prop where
  slot : t ∈ T.slots
  field : f ∈ t.fields
  named : f.HasName key
  alone : ∀ t' ∈ T.slots, ∀ f' ∈ t'.fields, f'.HasName key → t' = t ∧ f' = f

inductive Edit (T : MessageType Ref) : Json.Members → Json.Members → Prop
  /-- A field is given under its other name, which does not stand in the object. -/
  | rename (front back : Json.Members) {key key' : String} {v : Json} {t : SlotType Ref}
    {f : Field (FieldType Ref)} (names : T.Names key t f) (names' : T.Names key' t f)
    (absent : key' ∉ (front ++ (key, v) :: back).map (·.1)) :
    Edit T (front ++ (key, v) :: back) (front ++ (key', v) :: back)
  /-- A member is added that is new and that no field claims. -/
  | unknown (front back : Json.Members) {key : String} (v : Json)
    (absent : key ∉ (front ++ back).map (·.1))
    (unknown : ∀ t ∈ T.slots, ∀ f ∈ t.fields, ¬f.HasName key) :
    Edit T (front ++ back) (front ++ (key, v) :: back)
  /-- A member is added that is new and `null`. -/
  | null (front back : Json.Members) {key : String} (absent : key ∉ (front ++ back).map (·.1)) :
    Edit T (front ++ back) (front ++ (key, .null) :: back)
  | permute {ms ms' : Json.Members} (h : ms.Perm ms') : Edit T ms ms'

end MessageType

/-- Where a message stands in the value of a field. -/
inductive Place : FieldForm → Type
  | self : Place .single
  | item (before after : List Json) : Place .list
  | entry {key : Scalar} (before : Json.Members) (name : String) (after : Json.Members) :
    Place (.entries key)

def Place.put {form : FieldForm} : Place form → Json → Json
  | .self, v => v
  | .item before after, v => .array (before ++ v :: after)
  | .entry before name after, v => .object (before ++ (name, v) :: after)

/-- The second value is the first with an edit of one object that says what is in a message:
    of the value itself or of an object in it. -/
inductive Json.Edited (S : Schema Ref) : Ref → Json → Json → Prop
  | here {r : Ref} {ms ms' : Json.Members} (edit : (S r).Edit ms ms') :
    Edited S r (.object ms) (.object ms')
  | inside {r q : Ref} (front back : Json.Members) {key : String} {t : SlotType Ref}
    {f : Field (FieldType Ref)} {v v' : Json} (names : (S r).Names key t f)
    (type : f.type = .message q) (place : Place t.form) (edited : Edited S q v v') :
    Edited S r (.object (front ++ (key, place.put v) :: back))
      (.object (front ++ (key, place.put v') :: back))

variable {S : Schema Ref}

/-! ## Distinct keys and names -/

namespace Json

theorem HasDistinctKeys.of_partOf {v v' : Json} (h : v'.HasDistinctKeys) (part : v.PartOf v') :
    v.HasDistinctKeys :=
  fun ms hms => h ms (hms.trans part)

theorem HasDistinctKeys.object {ms : Members} (distinct : (ms.map (·.1)).Nodup)
    (values : ∀ e ∈ ms, e.2.HasDistinctKeys) : (object ms).HasDistinctKeys := by
  intro inner part
  cases part with
  | self => exact distinct
  | member h rest => exact values _ h inner rest

theorem HasDistinctKeys.number (n : JsonNumber) : (number n).HasDistinctKeys := by
  intro inner part
  cases part

end Json

namespace MessageType

variable {T : MessageType Ref}

def placedFields (T : MessageType Ref) : List (SlotType Ref × Field (FieldType Ref)) :=
  T.slots.flatMap fun t => t.fields.map (t, ·)

theorem mem_placedFields {t : SlotType Ref} {f : Field (FieldType Ref)} (slot : t ∈ T.slots)
    (field : f ∈ t.fields) : (t, f) ∈ T.placedFields :=
  List.mem_flatMap.2 ⟨t, slot, List.mem_map_of_mem field⟩

/-- Whether no two fields of a type share a name. -/
def NamesApart (T : MessageType Ref) : Prop :=
  (T.slots.flatMap SlotType.names).Pairwise fun a b => Apart a b ∧ a.2 ≠ b.2

instance (T : MessageType Ref) : Decidable T.NamesApart :=
  inferInstanceAs (Decidable (List.Pairwise _ _))

theorem NamesApart.pairwise_placedFields (apart : T.NamesApart) :
    T.placedFields.Pairwise fun p q => Apart p.2.names q.2.names ∧ p.2.names.2 ≠ q.2.names.2 := by
  have hnames : T.slots.flatMap SlotType.names = T.placedFields.map (·.2.names) := by
    rw [placedFields, List.map_flatMap]
    congr
    funext t
    rw [← SlotType.map_names_fields, List.map_map]
    rfl
  rw [NamesApart, hnames, List.pairwise_map] at apart
  exact apart

/-- Where no two fields share a name, each name is that of one field. -/
theorem NamesApart.names (apart : T.NamesApart) {key : String} {t : SlotType Ref}
    {f : Field (FieldType Ref)} (slot : t ∈ T.slots) (field : f ∈ t.fields)
    (named : f.HasName key) : T.Names key t f where
  slot := slot
  field := field
  named := named
  alone t' slot' f' field' named' := by
    have symm : Std.Symm fun p q : SlotType Ref × Field (FieldType Ref) =>
        Apart p.2.names q.2.names ∧ p.2.names.2 ≠ q.2.names.2 :=
      ⟨fun _ _ h => ⟨h.1.symm, h.2.symm⟩⟩
    by_contra hne
    -- Two fields at two places have no name in common.
    obtain ⟨⟨hjson, hleft, hright⟩, hproto⟩ := apart.pairwise_placedFields.forall
      (mem_placedFields slot field) (mem_placedFields slot' field')
      fun heq => hne (by cases heq; exact ⟨rfl, rfl⟩)
    rcases named with rfl | rfl <;> rcases named' with h | h
    · exact hjson h
    · exact hleft h
    · exact hright h
    · exact hproto h

end MessageType

/-! ## What is found -/

namespace Json.Members

variable {ms ms' front back : Members} {key other : String} {v : Json}

theorem find?_append_cons_self (h : key ∉ front.map (·.1)) :
    find? (front ++ (key, v) :: back) key = some v := by
  rw [find?_append_right h, find?, if_pos rfl]

theorem find?_append_cons_of_ne (h : key ≠ other) :
    find? (front ++ (key, v) :: back) other = find? (front ++ back) other := by
  induction front with
  | nil => rw [List.nil_append, List.nil_append, find?, if_neg h]
  | cons e rest ih =>
    obtain ⟨k, w⟩ := e
    rw [List.cons_append, List.cons_append, find?, find?, ih]

theorem present?_append_cons_self (h : key ∉ front.map (·.1)) (hv : v.isNull = false) :
    present? (front ++ (key, v) :: back) key = some v := by
  rw [present?, find?_append_cons_self h, Option.filter_some, hv]
  rfl

theorem present?_append_cons_of_ne (h : key ≠ other) :
    present? (front ++ (key, v) :: back) other = present? (front ++ back) other := by
  rw [present?, present?, find?_append_cons_of_ne h]

theorem present?_of_not_mem (h : key ∉ ms.map (·.1)) : ms.present? key = none := by
  rw [present?, find?_of_not_mem h]
  rfl

/-- A `null` under a key of its own is like no member. -/
theorem present?_append_cons_of_isNull (h : key ∉ (front ++ back).map (·.1)) (hv : v.isNull) :
    present? (front ++ (key, v) :: back) other = present? (front ++ back) other := by
  by_cases hkey : key = other
  · subst hkey
    have hfront : key ∉ front.map (·.1) := fun hmem => h (by simp [hmem])
    rw [present?_of_not_mem h, present?, find?_append_cons_self hfront, Option.filter_some, hv]
    rfl
  · exact present?_append_cons_of_ne hkey

theorem find?_of_present? (h : ms.present? key = some v) : ms.find? key = some v :=
  (Option.filter_eq_some_iff.mp h).1

theorem field?_of_json {jsonName protoName : String} (h : ms.present? jsonName = some v)
    (alone : protoName ≠ jsonName → ms.present? protoName = none) :
    ms.field? jsonName protoName = .ok (some (jsonName, v)) := by
  have hone : ¬(protoName ≠ jsonName ∧ (ms.present? protoName).isSome) := by
    rintro ⟨hne, hboth⟩
    rw [alone hne] at hboth
    cases hboth
  rw [field?, h]
  exact if_neg hone

theorem field?_of_proto {jsonName protoName : String} (h : ms.present? protoName = some v)
    (alone : ms.present? jsonName = none) :
    ms.field? jsonName protoName = .ok (some (protoName, v)) := by
  have hne : protoName ≠ jsonName := by
    rintro rfl
    rw [alone] at h
    cases h
  simp only [field?, alone, if_neg hne, h, Option.map_some]

theorem field?_of_both {jsonName protoName : String} (different : jsonName ≠ protoName)
    (json : (ms.present? jsonName).isSome) (proto : (ms.present? protoName).isSome) :
    ms.field? jsonName protoName = .error (.duplicateField protoName) := by
  obtain ⟨v, hv⟩ := Option.isSome_iff_exists.mp json
  rw [field?, hv]
  exact if_pos ⟨different.symm, proto⟩

theorem field?_of_neither {jsonName protoName : String} (json : ms.present? jsonName = none)
    (proto : ms.present? protoName = none) : ms.field? jsonName protoName = .ok none := by
  simp only [field?, json, proto, Option.map_none, ite_self]

end Json.Members

namespace Json

variable {ms ms' front back : Members} {form : FieldForm} {f : Field (FieldType Ref)}
  {key key' : String} {v v' : Json}

theorem ReadAlike.symm {t : FieldType Ref} (h : ReadAlike S form t v v') :
    ReadAlike S form t v' v := by
  cases h with
  | same => exact .same _ _ _
  | single h => exact .single fun m => (h m).symm
  | list h => exact .list h.symm
  | entries h => exact .entries h.symm

theorem FoundAlike.symm (h : FoundAlike S ms ms' form f) : FoundAlike S ms' ms form f := by
  cases h with
  | fault h h' => exact .fault h' h
  | absent h h' => exact .absent h' h
  | found h h' value value' alike => exact .found h' h value' value alike.symm

/-- Values that are alike under each name of a field. -/
theorem foundAlike_of_present
    (json : Option.Rel (ReadAlike S form f.type) (ms.present? f.jsonName) (ms'.present? f.jsonName))
    (proto : Option.Rel (ReadAlike S form f.type) (ms.present? f.protoName)
      (ms'.present? f.protoName)) : FoundAlike S ms ms' form f := by
  generalize hj : ms.present? f.jsonName = j, hj' : ms'.present? f.jsonName = j' at json
  generalize hp : ms.present? f.protoName = p, hp' : ms'.present? f.protoName = p' at proto
  cases json with
  | none =>
    cases proto with
    | none => exact .absent (Members.field?_of_neither hj hp) (Members.field?_of_neither hj' hp')
    | some alike =>
      exact .found (Members.field?_of_proto hp hj) (Members.field?_of_proto hp' hj')
        (Members.find?_of_present? hp) (Members.find?_of_present? hp') alike
  | some alike =>
    by_cases hboth : f.jsonName ≠ f.protoName ∧ p.isSome
    · -- The field is given under both of its names.
      obtain ⟨hne, hsome⟩ := hboth
      have hsome' : p'.isSome := by cases proto <;> simp_all
      exact .fault (Members.field?_of_both hne (by simp [hj]) (by rwa [hp]))
        (Members.field?_of_both hne (by simp [hj']) (by rwa [hp']))
    · have hnone : f.protoName ≠ f.jsonName → p = none ∧ p' = none := by
        intro hne
        have hp : p = none := by simpa [hne.symm] using hboth
        refine ⟨hp, ?_⟩
        subst hp
        cases proto
        rfl
      exact .found (Members.field?_of_json hj fun hne => hp.trans (hnone hne).1)
        (Members.field?_of_json hj' fun hne => hp'.trans (hnone hne).2)
        (Members.find?_of_present? hj) (Members.find?_of_present? hj') alike

theorem foundAlike_of_same (same : ∀ name, f.HasName name → ms.present? name = ms'.present? name) :
    FoundAlike S ms ms' form f := by
  have refl : ∀ o : Option Json, Option.Rel (ReadAlike S form f.type) o o := by
    intro o
    cases o with
    | none => exact .none
    | some v => exact .some (.same _ _ v)
  exact foundAlike_of_present (same _ (.inl rfl) ▸ refl _) (same _ (.inr rfl) ▸ refl _)

/-! ## One edit -/

/-- Another value under one key makes no difference to a field that makes the same of it, or
    that has no such name. -/
theorem foundAlike_of_exchange (new : key ∉ front.map (·.1)) (present : v.isNull = false)
    (present' : v'.isNull = false) (alike : f.HasName key → ReadAlike S form f.type v v') :
    FoundAlike S (front ++ (key, v) :: back) (front ++ (key, v') :: back) form f := by
  have each : ∀ name, f.HasName name → Option.Rel (ReadAlike S form f.type)
      (Members.present? (front ++ (key, v) :: back) name)
      (Members.present? (front ++ (key, v') :: back) name) := by
    intro name hname
    by_cases hkey : key = name
    · subst hkey
      rw [Members.present?_append_cons_self new present,
        Members.present?_append_cons_self new present']
      exact .some (alike hname)
    · rw [Members.present?_append_cons_of_ne hkey, Members.present?_append_cons_of_ne hkey]
      generalize Members.present? (front ++ back) name = o
      cases o with
      | none => exact .none
      | some w => exact .some (.same _ _ w)
  exact foundAlike_of_present (each _ (.inl rfl)) (each _ (.inr rfl))

/-- A field is found under its second name as it was under its first. -/
theorem foundAlike_of_rename (different : f.jsonName ≠ f.protoName)
    (json : f.jsonName ∉ (front ++ back).map (·.1))
    (proto : f.protoName ∉ (front ++ back).map (·.1)) :
    FoundAlike S (front ++ (f.jsonName, v) :: back) (front ++ (f.protoName, v) :: back) form f := by
  have hjson := Members.present?_of_not_mem json
  have hproto := Members.present?_of_not_mem proto
  by_cases hnull : v.isNull
  · refine .absent (Members.field?_of_neither ?_ ?_) (Members.field?_of_neither ?_ ?_)
    · rw [Members.present?_append_cons_of_isNull json hnull, hjson]
    · rw [Members.present?_append_cons_of_isNull json hnull, hproto]
    · rw [Members.present?_append_cons_of_isNull proto hnull, hjson]
    · rw [Members.present?_append_cons_of_isNull proto hnull, hproto]
  · have hpresent : v.isNull = false := by simpa using hnull
    have json' : f.jsonName ∉ front.map (·.1) := fun h => json (by simp [h])
    have proto' : f.protoName ∉ front.map (·.1) := fun h => proto (by simp [h])
    refine .found (Members.field?_of_json (Members.present?_append_cons_self json' hpresent) ?_)
      (Members.field?_of_proto (Members.present?_append_cons_self proto' hpresent) ?_)
      (Members.find?_append_cons_self json') (Members.find?_append_cons_self proto')
      (.same _ _ _)
    · intro _
      rw [Members.present?_append_cons_of_ne different, hproto]
    · rw [Members.present?_append_cons_of_ne different.symm, hjson]

end Json

theorem MessageType.Names.key_cases {T : MessageType Ref} {key key' : String} {t : SlotType Ref}
    {f : Field (FieldType Ref)} (names : T.Names key t f) (names' : T.Names key' t f)
    (different : key ≠ key') :
    key = f.jsonName ∧ key' = f.protoName ∨ key = f.protoName ∧ key' = f.jsonName := by
  rcases names.named with h | h <;> rcases names'.named with h' | h'
  · exact absurd (h.trans h'.symm) different
  · exact .inl ⟨h, h'⟩
  · exact .inr ⟨h, h'⟩
  · exact absurd (h.trans h'.symm) different

/-- An edit of an object leaves what its fields find in it. -/
theorem MessageType.Edit.foundAlike {T : MessageType Ref} {ms ms' : Json.Members}
    (edit : T.Edit ms ms') (distinct : (ms.map (·.1)).Nodup) {t : SlotType Ref} (ht : t ∈ T.slots)
    {f : Field (FieldType Ref)} (hf : f ∈ t.fields) : Json.FoundAlike S ms ms' t.form f := by
  cases edit with
  | @rename front back key key' v t₀ f₀ names names' absent =>
    have different : key ≠ key' := by
      rintro rfl
      exact absent (by simp)
    have new : key ∉ (front ++ back).map (·.1) := by
      rw [List.map_append, List.map_cons] at distinct
      rw [List.map_append]
      exact (List.nodup_cons.mp (List.nodup_middle.mp distinct)).1
    have new' : key' ∉ (front ++ back).map (·.1) := fun h => absent (by simp_all)
    by_cases hname : f.HasName key ∨ f.HasName key'
    · -- The field is the one that the member is for.
      obtain ⟨rfl, rfl⟩ : t = t₀ ∧ f = f₀ := by
        rcases hname with h | h
        · exact names.alone t ht f hf h
        · exact names'.alone t ht f hf h
      rcases names.key_cases names' different with ⟨rfl, rfl⟩ | ⟨rfl, rfl⟩
      · exact Json.foundAlike_of_rename different new new'
      · exact (Json.foundAlike_of_rename different.symm new' new).symm
    · refine Json.foundAlike_of_same fun name h => ?_
      have hne : key ≠ name := by
        rintro rfl
        exact hname (.inl h)
      have hne' : key' ≠ name := by
        rintro rfl
        exact hname (.inr h)
      rw [Json.Members.present?_append_cons_of_ne hne, Json.Members.present?_append_cons_of_ne hne']
  | @unknown front back key v absent unknown =>
    refine Json.foundAlike_of_same fun name h => ?_
    have hne : key ≠ name := by
      rintro rfl
      exact unknown t ht f hf h
    rw [Json.Members.present?_append_cons_of_ne hne]
  | null _ _ absent =>
    refine Json.foundAlike_of_same fun name _ => ?_
    rw [Json.Members.present?_append_cons_of_isNull absent rfl]
  | permute h =>
    refine Json.foundAlike_of_same fun name _ => ?_
    rw [Json.Members.present?, Json.Members.present?, Json.Members.find?_perm distinct h]

/-! ## An edit in a value -/

namespace Place

variable {form : FieldForm} {v v' : Json}

theorem partOf_put (place : Place form) (v : Json) : v.PartOf (place.put v) := by
  cases place with
  | self => exact .self v
  | item before after => exact .item (by simp) (.self v)
  | entry before name after => exact .member (List.mem_append_right before List.mem_cons_self) (.self v)

theorem isNull_put (place : Place form) (h : v.isNull = false) : (place.put v).isNull = false := by
  cases place with
  | self => exact h
  | item before after => rfl
  | entry before name after => rfl

/-- A field makes the same of a value with a message in it that is merged alike. -/
theorem readAlike_put (place : Place form) {q : Ref}
    (h : ∀ m, v.mergeInto S q m = v'.mergeInto S q m) :
    Json.ReadAlike S form (.message q) (place.put v) (place.put v') := by
  cases place with
  | self => exact .single h
  | item before after =>
    refine .list ?_
    rw [put, put, Json.elements, Json.elements]
    induction before with
    | nil => rw [List.nil_append, List.nil_append, Json.messages, Json.messages, h]
    | cons w before ih => rw [List.cons_append, List.cons_append, Json.messages, Json.messages, ih]
  | entry before name after =>
    refine .entries ?_
    rw [put, put, Json.entries, Json.entries]
    induction before with
    | nil => rw [List.nil_append, List.nil_append, Json.messageEntries, Json.messageEntries, h]
    | cons e before ih =>
      obtain ⟨key, w⟩ := e
      rw [List.cons_append, List.cons_append, Json.messageEntries, Json.messageEntries, ih]

end Place

namespace Json

variable {r : Ref} {v v' : Json}

theorem Edited.isNull (h : Edited S r v v') : v.isNull = false ∧ v'.isNull = false := by
  cases h <;> exact ⟨rfl, rfl⟩

/-- In an object without repeated keys, what stands at a place of a member has none either, and
    no member in front of that one has its key. -/
theorem HasDistinctKeys.of_put {form : FieldForm} {place : Place form} {front back : Members}
    {key : String}
    (distinct : (Json.object (front ++ (key, place.put v) :: back)).HasDistinctKeys) :
    v.HasDistinctKeys ∧ key ∉ front.map (·.1) := by
  have hmem : (key, place.put v) ∈ front ++ (key, place.put v) :: back :=
    List.mem_append_right front List.mem_cons_self
  have hkeys := distinct _ (.self _)
  rw [List.map_append, List.map_cons] at hkeys
  exact ⟨distinct.of_partOf ((place.partOf_put v).trans (.member hmem (.self _))),
    fun h => (List.nodup_append.1 hkeys).2.2 _ h _ List.mem_cons_self rfl⟩

/-- An edited value is merged like the one it was, into any message. -/
theorem Edited.mergeInto (h : Edited S r v v') (distinct : v.HasDistinctKeys) (m : Message) :
    v.mergeInto S r m = v'.mergeInto S r m := by
  induction h generalizing m with
  | here edit =>
    refine mergeInto_of_foundAlike (fun t ht f hf => ?_) m
    exact edit.foundAlike (distinct _ (.self _)) ht hf
  | @inside r q front back key t f v v' names type place edited ih =>
    obtain ⟨hinner, new⟩ := distinct.of_put
    obtain ⟨hnull, hnull'⟩ := edited.isNull
    refine mergeInto_of_foundAlike (fun t' ht' f' hf' => ?_) m
    refine foundAlike_of_exchange new (place.isNull_put hnull) (place.isNull_put hnull')
      fun hname => ?_
    -- The field is the one that the member is for, and holds the edited message.
    obtain ⟨rfl, rfl⟩ := names.alone t' ht' f' hf' hname
    rw [type]
    exact place.readAlike_put (ih hinner)

end Json

end Protobuf
