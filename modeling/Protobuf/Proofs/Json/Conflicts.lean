import Protobuf.Proofs.Json.Edits

/-! # Objects that contradict themselves

An object may give a field only once, and a oneof only one member.  What cannot be read
of an object cannot be read of any value that it is in.

* `MessageType.Conflict`: a field given under both of its names, or two members of a oneof.
* `Json.MessageIn`: the objects in a value that say what is in a message.
* `Json.FieldFails`: a field of which nothing can be read.
* `Json.MessageIn.fails`: a value with an object in it that contradicts itself.
-/

namespace Protobuf

variable {Ref : Type}

/-- Whether an object gives a field, under either of its names. -/
def Json.Members.Gives {τ : Type} (ms : Json.Members) (f : Field τ) : Prop :=
  (ms.present? f.jsonName).isSome ∨ (ms.present? f.protoName).isSome

inductive MessageType.Conflict (T : MessageType Ref) (ms : Json.Members) : Prop
  | names {t : SlotType Ref} {f : Field (FieldType Ref)} (slot : t ∈ T.slots)
    (field : f ∈ t.fields) (different : f.jsonName ≠ f.protoName)
    (json : (ms.present? f.jsonName).isSome) (proto : (ms.present? f.protoName).isSome)
  | members {name : String} {fs : List (Field (FieldType Ref))} {f g : Field (FieldType Ref)}
    (slot : .oneof name fs ∈ T.slots) (first : f ∈ fs) (second : g ∈ fs) (different : f ≠ g)
    (given : ms.Gives f) (given' : ms.Gives g)

/-- The object says what is in a message: in that which the value says, or in one inside of
    it. -/
inductive Json.MessageIn (S : Schema Ref) : Ref → Json → Ref → Json.Members → Prop
  | self (r : Ref) (ms : Json.Members) : MessageIn S r (.object ms) r ms
  | inside {r q p : Ref} (front back : Json.Members) {ms : Json.Members} {key : String}
    {t : SlotType Ref} {f : Field (FieldType Ref)} {v : Json} (slot : t ∈ (S r).slots)
    (field : f ∈ t.fields) (named : f.HasName key) (type : f.type = .message q) (place : Place t.form)
    (rest : MessageIn S q v p ms) :
    MessageIn S r (.object (front ++ (key, place.put v) :: back)) p ms

variable {S : Schema Ref}

/-! ## Values that cannot be read -/

/-- A value that a field of a form and a type cannot be read from. -/
inductive Json.Unreadable (S : Schema Ref) : FieldForm → FieldType Ref → Json → Prop
  | single {r : Ref} {v : Json} {e : DecodeError}
    (h : (v.mergeInto S r (S r).default).1 = .error e) : Unreadable S .single (.message r) v
  | list {r : Ref} {v : Json} {e : DecodeError} (h : v.elements S r = .error e) :
    Unreadable S .list (.message r) v
  | entries {key : Scalar} {r : Ref} {v : Json} {e : DecodeError}
    (h : v.entries S key r = .error e) : Unreadable S (.entries key) (.message r) v

theorem consMessage_error {merged : Except DecodeError Unit × Message}
    {rest : Except DecodeError (List Value)}
    (h : (∃ e, merged.1 = .error e) ∨ ∃ e, rest = .error e) :
    ∃ e, consMessage merged rest = .error e := by
  obtain ⟨outcome, m⟩ := merged
  cases outcome with
  | error e => exact ⟨e, rfl⟩
  | ok =>
    rcases h with ⟨e, h⟩ | ⟨e, rfl⟩
    · cases h
    · exact ⟨e, rfl⟩

theorem consEntry_error {key : Except DecodeError MapKey} {merged : Except DecodeError Unit × Message}
    {rest : Except DecodeError (List (MapKey × Value))}
    (h : (∃ e, merged.1 = .error e) ∨ ∃ e, rest = .error e) :
    ∃ e, consEntry key merged rest = .error e := by
  obtain ⟨outcome, m⟩ := merged
  cases key with
  | error e => exact ⟨e, rfl⟩
  | ok k =>
    cases outcome with
    | error e => exact ⟨e, rfl⟩
    | ok =>
      rcases h with ⟨e, h⟩ | ⟨e, rfl⟩
      · cases h
      · exact ⟨e, rfl⟩

/-- A field cannot be read from a value with a message in it that cannot be merged. -/
theorem Place.unreadable_put {form : FieldForm} (place : Place form) {q : Ref} {v : Json}
    (h : ∃ e, (v.mergeInto S q (S q).default).1 = .error e) :
    Json.Unreadable S form (.message q) (place.put v) := by
  cases place with
  | self =>
    obtain ⟨e, h⟩ := h
    exact .single h
  | item before after =>
    have hitems : ∃ e, Json.messages S (before ++ v :: after) q = .error e := by
      induction before with
      | nil =>
        rw [List.nil_append, Json.messages]
        exact consMessage_error (.inl h)
      | cons w before ih =>
        rw [List.cons_append, Json.messages]
        exact consMessage_error (.inr ih)
    obtain ⟨e, hitems⟩ := hitems
    exact .list hitems
  | @entry key before name after =>
    have hentries : ∃ e, Json.messageEntries S (before ++ (name, v) :: after) key q = .error e := by
      induction before with
      | nil =>
        rw [List.nil_append, Json.messageEntries]
        exact consEntry_error (.inl h)
      | cons e before ih =>
        obtain ⟨other, w⟩ := e
        rw [List.cons_append, Json.messageEntries]
        exact consEntry_error (.inr ih)
    obtain ⟨e, hentries⟩ := hentries
    exact .entries hentries

/-! ## Fields that cannot be read -/

/-- A field of which nothing can be read: it is given twice, or its value cannot be read. -/
inductive Json.FieldFails (S : Schema Ref) (ms : Json.Members) (form : FieldForm)
    (f : Field (FieldType Ref)) : Prop
  | fault {e : DecodeError} (h : ms.field? f.jsonName f.protoName = .error e)
  | unreadable {key : String} {v : Json}
    (h : ms.field? f.jsonName f.protoName = .ok (some (key, v))) (value : ms.find? key = some v)
    (unreadable : Json.Unreadable S form f.type v)

section

variable {ms : Json.Members} {form : FieldForm} {f : Field (FieldType Ref)}

/-- A value under a name of a field is found, if the field is not given twice. -/
theorem Json.Members.field?_of_present {key : String} {v : Json} (h : ms.present? key = some v)
    (named : f.HasName key) :
    (∃ e, ms.field? f.jsonName f.protoName = .error e) ∨
      ms.field? f.jsonName f.protoName = .ok (some (key, v)) := by
  by_cases hboth : f.jsonName ≠ f.protoName ∧ (ms.present? f.jsonName).isSome ∧
      (ms.present? f.protoName).isSome
  · exact .inl ⟨_, field?_of_both hboth.1 hboth.2.1 hboth.2.2⟩
  · right
    rcases named with rfl | rfl
    · refine field?_of_json h fun hne => ?_
      by_contra hsome
      exact hboth ⟨hne.symm, by simp [h], Option.isSome_iff_ne_none.mpr hsome⟩
    · by_cases hsame : f.jsonName = f.protoName
      · rw [← hsame] at h ⊢
        exact field?_of_json h fun hne => absurd rfl hne
      · refine field?_of_proto h ?_
        by_contra hsome
        exact hboth ⟨hsame, Option.isSome_iff_ne_none.mpr hsome, by simp [h]⟩

theorem Json.fieldFails_of_present {key : String} {v : Json} (h : ms.present? key = some v)
    (named : f.HasName key) (unreadable : Unreadable S form f.type v) : FieldFails S ms form f := by
  rcases Members.field?_of_present h named with ⟨e, he⟩ | hfound
  · exact .fault he
  · exact .unreadable hfound (Members.find?_of_present? h) unreadable

theorem Json.Members.Gives.field? (h : ms.Gives f) :
    (∃ e, ms.field? f.jsonName f.protoName = .error e) ∨
      ∃ found, ms.field? f.jsonName f.protoName = .ok (some found) := by
  obtain ⟨key, named, v, hv⟩ : ∃ key, f.HasName key ∧ ∃ v, ms.present? key = some v := by
    rcases h with h | h
    · exact ⟨_, .inl rfl, Option.isSome_iff_exists.mp h⟩
    · exact ⟨_, .inr rfl, Option.isSome_iff_exists.mp h⟩
  exact (field?_of_present hv named).imp_right fun hfound => ⟨_, hfound⟩

end

/-! ## Slots that cannot be read -/

section

variable {ms : Json.Members} {name : String} {fs : List (Field (FieldType Ref))}
  {f g : Field (FieldType Ref)}

theorem MemberReader.fresh_error {key : String} {v : Json} {t : FieldType Ref}
    (value : ms.find? key = some v) (h : Json.Unreadable S .single t v) :
    ∃ e, fresh S (ofMembers S ms) key v t = .error e := by
  cases h with
  | @single r _ e h =>
    refine ⟨e, ?_⟩
    have hmerge : v.mergeInto S r (S r).default = (.error e, (v.mergeInto S r (S r).default).2) :=
      Prod.ext h rfl
    simp only [fresh, ofMembers, Json.mergeMember_of_find? value]
    rw [hmerge]

/-- A member that cannot be read, whatever was chosen before it. -/
theorem MemberReader.choose_of_fails (hf : f ∈ fs) (h : Json.FieldFails S ms .single f)
    (choice : Option (Nat × Value)) :
    ∃ e, choose S (ofMembers S ms) ms name fs choice = .error e := by
  induction fs generalizing choice with
  | nil => cases hf
  | cons first rest ih =>
    rw [choose]
    split
    · rename_i e _
      exact ⟨e, rfl⟩
    · rename_i hfirst
      rcases List.mem_cons.mp hf with rfl | hf
      · cases h with
        | fault h => simp [h] at hfirst
        | unreadable h _ _ => simp [h] at hfirst
      · exact ih hf choice
    · rename_i key v hfirst
      split
      · exact ⟨_, rfl⟩
      · split
        · rename_i e _
          exact ⟨e, rfl⟩
        · rename_i x hread
          rcases List.mem_cons.mp hf with rfl | hf
          · -- It is the first that is looked at.
            cases h with
            | fault h => simp [h] at hfirst
            | unreadable h value unreadable =>
              rw [h] at hfirst
              cases hfirst
              obtain ⟨e, he⟩ := fresh_error value unreadable
              rw [he] at hread
              cases hread
          · exact ih hf _

/-- A member that is given after another was chosen. -/
theorem MemberReader.choose_of_chosen (hg : g ∈ fs) (given : ms.Gives g) {choice : Option (Nat × Value)}
    (chosen : choice.isSome) : ∃ e, choose S (ofMembers S ms) ms name fs choice = .error e := by
  induction fs with
  | nil => cases hg
  | cons first rest ih =>
    rw [choose]
    split
    · rename_i e _
      exact ⟨e, rfl⟩
    · rename_i hfirst
      rcases List.mem_cons.mp hg with rfl | hg
      · rcases given.field? with ⟨e, he⟩ | ⟨found, hfound⟩
        · simp [he] at hfirst
        · simp [hfound] at hfirst
      · exact ih hg
    · rw [if_pos chosen]
      exact ⟨_, rfl⟩

theorem MemberReader.choose_of_two (hf : f ∈ fs) (hg : g ∈ fs) (different : f ≠ g)
    (given : ms.Gives f) (given' : ms.Gives g) :
    ∃ e, choose S (ofMembers S ms) ms name fs none = .error e := by
  induction fs with
  | nil => cases hf
  | cons first rest ih =>
    rw [choose]
    split
    · rename_i e _
      exact ⟨e, rfl⟩
    · -- The first member is not given, so that both are behind it.
      rename_i hfirst
      have notFirst : ∀ h : Field (FieldType Ref), ms.Gives h → h ≠ first := by
        rintro h hgiven rfl
        rcases hgiven.field? with ⟨e, he⟩ | ⟨found, hfound⟩
        · simp [he] at hfirst
        · simp [hfound] at hfirst
      exact ih ((List.mem_cons.mp hf).resolve_left (notFirst f given))
        ((List.mem_cons.mp hg).resolve_left (notFirst g given'))
    · rename_i key v _
      rw [if_neg (by simp)]
      split
      · rename_i e _
        exact ⟨e, rfl⟩
      · -- The first member is chosen, and one of the two is behind it.
        rcases List.mem_cons.mp hf with rfl | hf
        · exact choose_of_chosen ((List.mem_cons.mp hg).resolve_left different.symm) given' rfl
        · exact choose_of_chosen hf given rfl

theorem mergeNamed_of_fails {τ : Type} {form : FieldForm} {f : Field τ} {g : Field (FieldType Ref)}
    (names : g.names = f.names) (h : Json.FieldFails S ms form g) (s : Slot)
    {use : String → Json → Except DecodeError Unit × Slot}
    (unread : ∀ key v, ms.find? key = some v → Json.Unreadable S form g.type v →
      ∃ e, (use key v).1 = .error e) : ∃ e, (mergeNamed ms f s use).1 = .error e := by
  obtain ⟨hjson, hproto⟩ := Prod.mk.inj names
  unfold mergeNamed
  rw [← hjson, ← hproto]
  cases h with
  | @fault e h =>
    rw [h]
    exact ⟨e, rfl⟩
  | @unreadable key v h value unreadable =>
    rw [h]
    exact unread key v value unreadable

/-- A slot with a field of which nothing can be read. -/
theorem Slot.mergeObject_of_fails {t : SlotType Ref} (hf : f ∈ t.fields)
    (h : Json.FieldFails S ms t.form f) :
    ∃ e, (t.default.mergeObject S (.ofMembers S ms) ms t).1 = .error e := by
  -- But for a oneof the field that fails is the only one that the slot has.
  cases t with
  | implicit f' =>
    obtain rfl := List.mem_singleton.mp hf
    exact mergeNamed_of_fails rfl h _ fun _ _ _ unreadable => by cases unreadable
  | optional f' =>
    obtain rfl := List.mem_singleton.mp hf
    refine mergeNamed_of_fails rfl h _ fun key v value unreadable => ?_
    obtain ⟨number, protoName, jsonName, type⟩ := f
    cases unreadable with
    | @single _ _ e hread =>
      refine ⟨e, ?_⟩
      simp only [MemberReader.ofMembers, Json.mergeMember_of_find? value, Option.map_none,
        Option.getD_none]
      exact hread
  | repeated f' =>
    obtain rfl := List.mem_singleton.mp hf
    refine mergeNamed_of_fails rfl h _ fun key v value unreadable => ?_
    obtain ⟨number, protoName, jsonName, type⟩ := f
    cases unreadable with
    | list hread =>
      simp only [MemberReader.list, MemberReader.ofMembers, Json.memberElements_of_find? value,
        hread]
      exact ⟨_, rfl⟩
  | map key f' =>
    obtain rfl := List.mem_singleton.mp hf
    refine mergeNamed_of_fails rfl h _ fun key v value unreadable => ?_
    obtain ⟨number, protoName, jsonName, type⟩ := f
    cases unreadable with
    | entries hread =>
      simp only [MemberReader.entryList, MemberReader.ofMembers, Json.memberEntries_of_find? value,
        hread]
      exact ⟨_, rfl⟩
  | oneof name fs =>
    obtain ⟨e, he⟩ : ∃ e, MemberReader.choose S (.ofMembers S ms) ms name fs none = .error e :=
      MemberReader.choose_of_fails hf h none
    simp only [SlotType.default, mergeObject, he]
    exact ⟨e, rfl⟩

/-! ## Messages that cannot be read -/

theorem mergeSlots_error {ts : List (SlotType Ref)} {t : SlotType Ref} (ht : t ∈ ts)
    (h : ∃ e, (t.default.mergeObject S (.ofMembers S ms) ms t).1 = .error e) :
    ∃ e, (mergeSlots S (.ofMembers S ms) ms ts (ts.map SlotType.default)).1 = .error e := by
  induction ts with
  | nil => cases ht
  | cons first ts ih =>
    rw [List.map_cons, mergeSlots]
    split
    · rename_i e s _
      exact ⟨e, rfl⟩
    · rename_i s hfirst
      rcases List.mem_cons.mp ht with rfl | ht
      · obtain ⟨e, he⟩ := h
        rw [hfirst] at he
        cases he
      · exact ih ht

theorem Json.mergeInto_error {r : Ref} {t : SlotType Ref} (ht : t ∈ (S r).slots)
    (h : ∃ e, (t.default.mergeObject S (.ofMembers S ms) ms t).1 = .error e) :
    ∃ e, (mergeInto S (.object ms) r (S r).default).1 = .error e := by
  rw [mergeInto]
  cases (S r).shape with
  | object => exact mergeSlots_error ht h
  | timestamp => exact ⟨_, rfl⟩
  | duration => exact ⟨_, rfl⟩

theorem MessageType.Conflict.fails {r : Ref} (h : (S r).Conflict ms) :
    ∃ e, (Json.mergeInto S (.object ms) r (S r).default).1 = .error e := by
  cases h with
  | names slot field different json proto =>
    exact Json.mergeInto_error slot (Slot.mergeObject_of_fails field
      (.fault (Json.Members.field?_of_both different json proto)))
  | @members name fs f g slot first second different given given' =>
    refine Json.mergeInto_error slot ?_
    obtain ⟨e, he⟩ : ∃ e, MemberReader.choose S (.ofMembers S ms) ms name fs none = .error e :=
      MemberReader.choose_of_two first second different given given'
    simp only [SlotType.default, Slot.mergeObject, he]
    exact ⟨e, rfl⟩

end

theorem Json.MessageIn.isNull {r q : Ref} {v : Json} {ms : Members} (h : MessageIn S r v q ms) :
    v.isNull = false := by
  cases h <;> rfl

/-- A value with an object in it that contradicts itself cannot be merged. -/
theorem Json.MessageIn.fails {r q : Ref} {v : Json} {ms : Members} (h : MessageIn S r v q ms)
    (distinct : v.HasDistinctKeys) (conflict : (S q).Conflict ms) :
    ∃ e, (mergeInto S v r (S r).default).1 = .error e := by
  induction h with
  | self r ms => exact conflict.fails
  | @inside r q p front back ms key t f v slot field named type place rest ih =>
    obtain ⟨hinner, new⟩ := distinct.of_put
    have unreadable := place.unreadable_put (ih hinner conflict)
    rw [← type] at unreadable
    exact mergeInto_error slot (Slot.mergeObject_of_fails field (fieldFails_of_present
      (Members.present?_append_cons_self new (place.isNull_put rest.isNull)) named unreadable))

end Protobuf
