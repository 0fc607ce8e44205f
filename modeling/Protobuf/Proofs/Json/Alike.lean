import Mathlib.Data.Option.Basic
import Protobuf.Proofs.Json.Values

/-! # Objects that are read alike

What is merged of an object depends on nothing but the values that are found for the
fields, wherever they are found.

* `SlotType.fields`, `SlotType.form`: the fields of a slot and the form of their values.
* `Json.ReadAlike`: two values that a field makes the same of.
* `Json.FoundAlike`: two objects in which a field finds such values.
* `Json.mergeInto_of_foundAlike`: objects in which each field does are merged alike.
-/

namespace Protobuf

variable {Ref : Type}

/-- In what form the values of a field are given. -/
inductive FieldForm
  | single
  | list
  | entries (key : Scalar)
deriving DecidableEq

namespace SlotType

def form : SlotType Ref → FieldForm
  | .implicit _ | .optional _ | .oneof _ _ => .single
  | .repeated _ => .list
  | .map key _ => .entries key

def fields : SlotType Ref → List (Field (FieldType Ref))
  | .implicit f => [⟨f.number, f.protoName, f.jsonName, .plain f.type⟩]
  | .optional f | .repeated f | .map _ f => [f]
  | .oneof _ members => members

theorem map_names_fields (t : SlotType Ref) : t.fields.map Field.names = t.names := by
  cases t <;> rfl

end SlotType

variable {S : Schema Ref}

inductive Json.ReadAlike (S : Schema Ref) : FieldForm → FieldType Ref → Json → Json → Prop
  | same (form : FieldForm) (t : FieldType Ref) (v : Json) : ReadAlike S form t v v
  | single {r : Ref} {v v' : Json} (h : ∀ m, v.mergeInto S r m = v'.mergeInto S r m) :
    ReadAlike S .single (.message r) v v'
  | list {r : Ref} {v v' : Json} (h : v.elements S r = v'.elements S r) :
    ReadAlike S .list (.message r) v v'
  | entries {key : Scalar} {r : Ref} {v v' : Json} (h : v.entries S key r = v'.entries S key r) :
    ReadAlike S (.entries key) (.message r) v v'

/-- Two objects in which a field of a form finds values that it makes the same of, or finds
    none, or finds the same fault. -/
inductive Json.FoundAlike (S : Schema Ref) (ms ms' : Json.Members) (form : FieldForm)
    (f : Field (FieldType Ref)) : Prop
  | fault {e : DecodeError} (h : ms.field? f.jsonName f.protoName = .error e)
    (h' : ms'.field? f.jsonName f.protoName = .error e)
  | absent (h : ms.field? f.jsonName f.protoName = .ok none)
    (h' : ms'.field? f.jsonName f.protoName = .ok none)
  | found {key key' : String} {v v' : Json}
    (h : ms.field? f.jsonName f.protoName = .ok (some (key, v)))
    (h' : ms'.field? f.jsonName f.protoName = .ok (some (key', v')))
    (value : ms.find? key = some v) (value' : ms'.find? key' = some v')
    (alike : Json.ReadAlike S form f.type v v')

/-! ## One field -/

section

variable {ms ms' : Json.Members} {key key' : String} {v v' : Json} {t : FieldType Ref}

theorem MemberReader.merge_of_alike {r : Ref} (value : ms.find? key = some v)
    (value' : ms'.find? key' = some v') (alike : Json.ReadAlike S .single (.message r) v v')
    (m : Message) : (ofMembers S ms).merge key r m = (ofMembers S ms').merge key' r m := by
  simp only [ofMembers, Json.mergeMember_of_find? value, Json.mergeMember_of_find? value']
  cases alike with
  | same => rfl
  | single h => exact h m

theorem MemberReader.fresh_of_alike (value : ms.find? key = some v)
    (value' : ms'.find? key' = some v') (alike : Json.ReadAlike S .single t v v') :
    fresh S (ofMembers S ms) key v t = fresh S (ofMembers S ms') key' v' t := by
  cases t with
  | plain t =>
    cases alike
    rfl
  | message r => simp only [fresh, merge_of_alike value value' alike]

theorem MemberReader.list_of_alike (value : ms.find? key = some v)
    (value' : ms'.find? key' = some v') (alike : Json.ReadAlike S .list t v v') :
    list (ofMembers S ms) key v t = list (ofMembers S ms') key' v' t := by
  cases t with
  | plain t =>
    cases alike
    rfl
  | message r =>
    simp only [list, ofMembers, Json.memberElements_of_find? value,
      Json.memberElements_of_find? value']
    cases alike with
    | same => rfl
    | list h => exact h

theorem MemberReader.entryList_of_alike {mapKey : Scalar} (value : ms.find? key = some v)
    (value' : ms'.find? key' = some v') (alike : Json.ReadAlike S (.entries mapKey) t v v') :
    entryList (ofMembers S ms) key v mapKey t = entryList (ofMembers S ms') key' v' mapKey t := by
  cases t with
  | plain t =>
    cases alike
    rfl
  | message r =>
    simp only [entryList, ofMembers, Json.memberEntries_of_find? value,
      Json.memberEntries_of_find? value']
    cases alike with
    | same => rfl
    | entries h => exact h

end

/-! ## Slots and messages -/

section

variable {ms ms' : Json.Members}

theorem mergeNamed_of_foundAlike {τ : Type} {form : FieldForm} {f : Field τ}
    {g : Field (FieldType Ref)} (names : g.names = f.names) (h : Json.FoundAlike S ms ms' form g)
    (s : Slot) {use use' : String → Json → Except DecodeError Unit × Slot}
    (same : ∀ key key' v v', ms.find? key = some v → ms'.find? key' = some v' →
      Json.ReadAlike S form g.type v v' → use key v = use' key' v') :
    mergeNamed ms f s use = mergeNamed ms' f s use' := by
  obtain ⟨hjson, hproto⟩ := Prod.mk.inj names
  unfold mergeNamed
  rw [← hjson, ← hproto]
  cases h with
  | fault h h' => rw [h, h']
  | absent h h' => rw [h, h']
  | found h h' value value' alike =>
    rw [h, h']
    exact same _ _ _ _ value value' alike

theorem MemberReader.choose_of_foundAlike {name : String} {fs : List (Field (FieldType Ref))}
    (h : ∀ f ∈ fs, Json.FoundAlike S ms ms' .single f) (choice : Option (Nat × Value)) :
    choose S (ofMembers S ms) ms name fs choice = choose S (ofMembers S ms') ms' name fs choice := by
  induction fs generalizing choice with
  | nil => rfl
  | cons f rest ih =>
    have further := ih fun g hg => h g (List.mem_cons_of_mem _ hg)
    rw [choose, choose]
    cases h f List.mem_cons_self with
    | fault h h' => rw [h, h']
    | absent h h' =>
      rw [h, h']
      exact further choice
    | found h h' value value' alike =>
      rw [h, h']
      simp only [fresh_of_alike value value' alike, further]

theorem Slot.mergeObject_of_foundAlike {t : SlotType Ref}
    (h : ∀ f ∈ t.fields, Json.FoundAlike S ms ms' t.form f) (s : Slot) :
    s.mergeObject S (.ofMembers S ms) ms t = s.mergeObject S (.ofMembers S ms') ms' t := by
  cases t with
  | implicit f =>
    refine mergeNamed_of_foundAlike rfl (h _ List.mem_cons_self) s fun _ _ v v' _ _ alike => ?_
    cases alike
    rfl
  | optional f =>
    cases s with
    | optional old =>
      refine mergeNamed_of_foundAlike rfl (h _ List.mem_cons_self) _ fun _ _ v v' hv hv' alike => ?_
      obtain ⟨number, protoName, jsonName, type⟩ := f
      cases type with
      | plain t =>
        cases alike
        rfl
      | message r => simp only [MemberReader.merge_of_alike hv hv' alike]
    | _ => rfl
  | repeated f =>
    cases s with
    | repeated vs =>
      refine mergeNamed_of_foundAlike rfl (h _ List.mem_cons_self) _ fun _ _ v v' hv hv' alike => ?_
      rw [MemberReader.list_of_alike hv hv' alike]
    | _ => rfl
  | map key f =>
    cases s with
    | map entries =>
      refine mergeNamed_of_foundAlike rfl (h _ List.mem_cons_self) _ fun _ _ v v' hv hv' alike => ?_
      rw [MemberReader.entryList_of_alike hv hv' alike]
    | _ => rfl
  | oneof name fs =>
    cases s with
    | oneof old =>
      have hchoose : MemberReader.choose S (.ofMembers S ms) ms name fs none =
          MemberReader.choose S (.ofMembers S ms') ms' name fs none :=
        MemberReader.choose_of_foundAlike h none
      simp only [mergeObject, hchoose]
    | _ => rfl

theorem mergeSlots_of_foundAlike {ts : List (SlotType Ref)}
    (h : ∀ t ∈ ts, ∀ f ∈ t.fields, Json.FoundAlike S ms ms' t.form f) (ss : Message) :
    mergeSlots S (.ofMembers S ms) ms ts ss = mergeSlots S (.ofMembers S ms') ms' ts ss := by
  induction ts generalizing ss with
  | nil => rfl
  | cons t ts ih =>
    cases ss with
    | nil => rfl
    | cons s ss =>
      have first := Slot.mergeObject_of_foundAlike (h t List.mem_cons_self) s
      have others := ih (fun t ht => h t (List.mem_cons_of_mem _ ht)) ss
      rw [mergeSlots, mergeSlots, first, others]

/-- Objects in which each field finds values that it makes the same of are merged alike. -/
theorem Json.mergeInto_of_foundAlike {r : Ref}
    (h : ∀ t ∈ (S r).slots, ∀ f ∈ t.fields, FoundAlike S ms ms' t.form f) (m : Message) :
    mergeInto S (.object ms) r m = mergeInto S (.object ms') r m := by
  rw [mergeInto, mergeInto]
  cases (S r).shape with
  | object => exact mergeSlots_of_foundAlike h m
  | timestamp => rfl
  | duration => rfl

end

end Protobuf
