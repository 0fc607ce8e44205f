import Mathlib.Algebra.Group.Nat.Defs
import Mathlib.Data.List.Nodup
import Protobuf.Descriptor.Build
import Protobuf.Names.Table

/-! # Descriptors that were built are linked

A message descriptor is built by calls, one part each.  What a call adds depends on the calls
before it in one thing only, the number of oneofs that they added, so that the parts fit
together however the calls are mixed.

* `FieldDescriptor.Made`: the fields that calls are given.
* `BuildCall`, `MessageDescriptor.built`: the calls, and a message that they build.
* `MessageDescriptor.perform_eq`, `built_eq`: what one call adds, and what all of them do.
* `MessageDescriptor.Linked`, `built_linked`: the parts of a message refer to each other as they
  should.
-/

namespace Protobuf

inductive FieldDescriptor.Made : FieldDescriptor → Prop
  | ofKind (name : String) (number : Int32) (kind : FieldKind) : Made (ofKind name number kind)
  | ofMessage (name : String) (number : Int32) (typeName : String) :
      Made (ofMessage name number typeName)
  | ofEnum (name : String) (number : Int32) (typeName : String) : Made (ofEnum name number typeName)
  | asRepeated {f : FieldDescriptor} (h : Made f) : Made f.asRepeated
  | asOptional {f : FieldDescriptor} (h : Made f) : Made f.asOptional
  | withJsonName {f : FieldDescriptor} (h : Made f) (jsonName : String) : Made (f.withJsonName jsonName)

/-- A field is in no oneof before it is added to a message. -/
theorem FieldDescriptor.Made.oneofIndex {f : FieldDescriptor} (h : f.Made) : f.oneofIndex = none := by
  induction h with
  | ofKind | ofMessage | ofEnum => rfl
  | asRepeated _ ih | asOptional _ ih | withJsonName _ _ ih => exact ih

inductive BuildCall
  | field (f : FieldDescriptor)
  | oneof (name : String) (members : List FieldDescriptor)
  | map (name : String) (number : Int32) (key : FieldKind) (value : FieldDescriptor)
  | nested (m : MessageDescriptor)
  | enumeration (e : EnumDescriptor)

def MessageDescriptor.perform (scope : String) (m : MessageDescriptor) :
    BuildCall → MessageDescriptor
  | .field f => m.addField f
  | .oneof name members => m.addOneof name members
  | .map name number key value => m.addMap name number key value scope
  | .nested inner => m.addNested inner
  | .enumeration e => m.addEnum e

def MessageDescriptor.built (name scope : String) (calls : List BuildCall) : MessageDescriptor :=
  calls.foldl (perform scope) (named name)

/-! ## What calls add -/

def FieldDescriptor.ownOneof (f : FieldDescriptor) : OneofDescriptor :=
  { name := some ("_" ++ f.name.getD "") }

namespace BuildCall

def Made : BuildCall → Prop
  | field f => f.Made
  | oneof _ members => ∀ f ∈ members, f.Made
  | map _ _ _ value => value.Made
  | nested _ => True
  | enumeration _ => True

def oneofs : BuildCall → List OneofDescriptor
  | field f => if f.isProto3Optional then [f.ownOneof] else []
  | oneof name _ => [{ name := some name }]
  | _ => []

def placed (n : Nat) (members : List FieldDescriptor) : List FieldDescriptor :=
  members.map fun f => { f with oneofIndex := some (Int32.ofNat n), proto3Optional := none }

def fields (scope : String) (n : Nat) : BuildCall → List FieldDescriptor
  | field f => [if f.isProto3Optional then { f with oneofIndex := some (Int32.ofNat n) } else f]
  | oneof _ members => placed n members
  | map name number _ _ =>
    [(FieldDescriptor.ofMessage name number (scope ++ "." ++ mapEntryName name)).asRepeated]
  | _ => []

def entryValue (value : FieldDescriptor) : FieldDescriptor :=
  { value with
    name := some "value"
    number := some 2
    jsonName := some "value"
    label := some Label.optional.code
    oneofIndex := none
    proto3Optional := none }

def entry (name : String) (key : FieldKind) (value : FieldDescriptor) : MessageDescriptor :=
  { name := some (mapEntryName name)
    fields := [FieldDescriptor.ofKind "key" 1 key, entryValue value]
    options := some { mapEntry := some true } }

def nestedTypes : BuildCall → List MessageDescriptor
  | map name _ key value => [entry name key value]
  | nested m => [m]
  | _ => []

def enumTypes : BuildCall → List EnumDescriptor
  | enumeration e => [e]
  | _ => []

def group? (n : Nat) : BuildCall → Option OneofGroup
  | oneof name (f :: rest) => some ⟨n, { name := some name }, placed n (f :: rest)⟩
  | _ => none

def fieldsFrom (scope : String) : Nat → List BuildCall → List FieldDescriptor
  | _, [] => []
  | n, c :: rest => c.fields scope n ++ fieldsFrom scope (n + c.oneofs.length) rest

/-- The groups of the oneofs that calls declare behind `n` oneofs, those without members left
    out. -/
def groupsFrom : Nat → List BuildCall → List OneofGroup
  | _, [] => []
  | n, c :: rest => (c.group? n).toList ++ groupsFrom (n + c.oneofs.length) rest

end BuildCall

namespace MessageDescriptor

theorem perform_eq (scope : String) (m : MessageDescriptor) (c : BuildCall) :
    m.perform scope c =
      { m with
        fields := m.fields ++ c.fields scope m.oneofs.length
        nestedTypes := m.nestedTypes ++ c.nestedTypes
        enumTypes := m.enumTypes ++ c.enumTypes
        oneofs := m.oneofs ++ c.oneofs } := by
  cases c with
  | field f =>
    cases h : f.isProto3Optional <;>
      simp [perform, addField, BuildCall.fields, BuildCall.oneofs, BuildCall.nestedTypes,
        BuildCall.enumTypes, FieldDescriptor.ownOneof, h]
  | oneof name members =>
    simp [perform, addOneof, BuildCall.fields, BuildCall.placed, BuildCall.oneofs,
      BuildCall.nestedTypes, BuildCall.enumTypes]
  | map name number key value =>
    simp [perform, addMap, BuildCall.fields, BuildCall.oneofs, BuildCall.nestedTypes,
      BuildCall.enumTypes, BuildCall.entry, BuildCall.entryValue]
  | nested inner =>
    simp [perform, addNested, BuildCall.fields, BuildCall.oneofs, BuildCall.nestedTypes,
      BuildCall.enumTypes]
  | enumeration e =>
    simp [perform, addEnum, BuildCall.fields, BuildCall.oneofs, BuildCall.nestedTypes,
      BuildCall.enumTypes]

theorem foldl_perform (scope : String) (calls : List BuildCall) (m : MessageDescriptor) :
    calls.foldl (perform scope) m =
      { m with
        fields := m.fields ++ BuildCall.fieldsFrom scope m.oneofs.length calls
        nestedTypes := m.nestedTypes ++ calls.flatMap BuildCall.nestedTypes
        enumTypes := m.enumTypes ++ calls.flatMap BuildCall.enumTypes
        oneofs := m.oneofs ++ calls.flatMap BuildCall.oneofs } := by
  induction calls generalizing m with
  | nil =>
    cases m
    simp [BuildCall.fieldsFrom]
  | cons c calls ih =>
    rw [List.foldl_cons, ih, perform_eq]
    simp [BuildCall.fieldsFrom]

/-- What a message consists of, part by part. -/
theorem built_eq (name scope : String) (calls : List BuildCall) :
    built name scope calls =
      { name := some name
        fields := BuildCall.fieldsFrom scope 0 calls
        nestedTypes := calls.flatMap BuildCall.nestedTypes
        enumTypes := calls.flatMap BuildCall.enumTypes
        oneofs := calls.flatMap BuildCall.oneofs } := by
  rw [built, foldl_perform]
  simp [named]

end MessageDescriptor

/-! ## Positions -/

/-- A 32-bit integer tells positions apart that it has room for. -/
theorem eq_of_int32_eq {i j : Nat} (hi : i < 2 ^ 32) (hj : j < 2 ^ 32)
    (h : Int32.ofNat i = Int32.ofNat j) : i = j := by
  have hmod : i % 2 ^ 32 = j % 2 ^ 32 := congrArg (·.toBitVec.toNat) h
  omega

def membersAt (i : Nat) (fields : List FieldDescriptor) : List FieldDescriptor :=
  fields.filter fun f => f.isOneofMember && f.oneofIndex = some (Int32.ofNat i)

theorem membersAt_append (i : Nat) (fields fields' : List FieldDescriptor) :
    membersAt i (fields ++ fields') = membersAt i fields ++ membersAt i fields' :=
  List.filter_append ..

theorem membersAt_eq_nil {i : Nat} {fields : List FieldDescriptor}
    (h : ∀ f ∈ fields, f.oneofIndex ≠ some (Int32.ofNat i)) : membersAt i fields = [] := by
  apply List.filter_eq_nil_iff.2
  intro f hf
  simp [h f hf]

namespace BuildCall

variable {scope : String} {n i : Nat} {c : BuildCall} {calls : List BuildCall} {f : FieldDescriptor}
  {index : Int32}

/-- Only a call that adds a oneof adds fields in a oneof, and they are in that one. -/
theorem oneofIndex_of_mem_fields (made : c.Made) (hf : f ∈ c.fields scope n)
    (hindex : f.oneofIndex = some index) : c.oneofs.length = 1 ∧ index = Int32.ofNat n := by
  cases c with
  | field g =>
    rw [fields, List.mem_singleton] at hf
    by_cases hopt : g.isProto3Optional
    · rw [if_pos hopt] at hf
      subst hf
      cases hindex
      exact ⟨by simp [oneofs, hopt], rfl⟩
    · rw [if_neg hopt] at hf
      subst hf
      rw [made.oneofIndex] at hindex
      cases hindex
  | oneof name members =>
    obtain ⟨g, -, rfl⟩ := List.mem_map.1 hf
    cases hindex
    exact ⟨rfl, rfl⟩
  | map name number key value =>
    rw [fields, List.mem_singleton] at hf
    subst hf
    cases hindex
  | nested m => cases hf
  | enumeration e => cases hf

/-- The fields of a series of calls are in the oneofs that these calls add. -/
theorem oneofIndex_of_mem_fieldsFrom (made : ∀ c ∈ calls, c.Made)
    (hf : f ∈ fieldsFrom scope n calls) (hindex : f.oneofIndex = some index) :
    ∃ p, n ≤ p ∧ p < n + (calls.flatMap oneofs).length ∧ index = Int32.ofNat p := by
  induction calls generalizing n with
  | nil => cases hf
  | cons c calls ih =>
    obtain ⟨hc, hcalls⟩ := List.forall_mem_cons.1 made
    rw [List.flatMap_cons, List.length_append]
    rcases List.mem_append.1 hf with hf | hf
    · obtain ⟨hlength, rfl⟩ := oneofIndex_of_mem_fields hc hf hindex
      exact ⟨n, by omega, by omega, rfl⟩
    · obtain ⟨p, hle, hlt, rfl⟩ := ih hcalls hf
      exact ⟨p, by omega, by omega, rfl⟩

/-- No field of a call is in a oneof behind those of the call. -/
theorem membersAt_fields (made : c.Made) (behind : n + c.oneofs.length ≤ i) (few : i < 2 ^ 32) :
    membersAt i (c.fields scope n) = [] := by
  apply membersAt_eq_nil
  intro f hf hindex
  obtain ⟨hlength, hsame⟩ := oneofIndex_of_mem_fields made hf hindex
  have := eq_of_int32_eq few (by omega) hsame
  omega

/-- No field of a series of calls is in a oneof in front of those of the calls. -/
theorem membersAt_fieldsFrom (made : ∀ c ∈ calls, c.Made) (before : i < n)
    (few : n + (calls.flatMap oneofs).length ≤ 2 ^ 32) :
    membersAt i (fieldsFrom scope n calls) = [] := by
  apply membersAt_eq_nil
  intro f hf hindex
  obtain ⟨p, hle, hlt, hsame⟩ := oneofIndex_of_mem_fieldsFrom made hf hindex
  have := eq_of_int32_eq (by omega) (by omega) hsame
  omega

/-! ## Groups -/

def groupAmong (fields : List FieldDescriptor) (p : OneofDescriptor × Nat) : OneofGroup :=
  ⟨p.2, p.1, membersAt p.2 fields⟩

def groupsAmong (fields : List FieldDescriptor) (oneofs : List (OneofDescriptor × Nat)) :
    List OneofGroup :=
  (oneofs.map (groupAmong fields)).filter fun g => !g.members.isEmpty

theorem groupsAmong_append (fields : List FieldDescriptor)
    (oneofs oneofs' : List (OneofDescriptor × Nat)) :
    groupsAmong fields (oneofs ++ oneofs') =
      groupsAmong fields oneofs ++ groupsAmong fields oneofs' := by
  rw [groupsAmong, List.map_append, List.filter_append, groupsAmong, groupsAmong]

/-- Every member of a declared oneof is in it. -/
theorem membersAt_placed (n : Nat) (members : List FieldDescriptor) :
    membersAt n (placed n members) = placed n members := by
  apply List.filter_eq_self.2
  intro f hf
  obtain ⟨g, -, rfl⟩ := List.mem_map.1 hf
  simp [FieldDescriptor.isOneofMember, FieldDescriptor.isProto3Optional]

/-- An `optional` field is no member of its oneof, so that this has none. -/
theorem membersAt_optional (hopt : f.isProto3Optional) : membersAt n ((field f).fields scope n) = [] := by
  have hmember : ({ f with oneofIndex := some (Int32.ofNat n) } : FieldDescriptor).isOneofMember =
      false := by
    simp [FieldDescriptor.isOneofMember, FieldDescriptor.isProto3Optional] at hopt ⊢
    exact hopt
  rw [fields, if_pos hopt]
  simp [membersAt, hmember]

/-- The group that one call adds, if no other field is in its oneof. -/
theorem groupsAmong_call {others : List FieldDescriptor}
    (alone : 0 < c.oneofs.length → membersAt n others = []) :
    groupsAmong (c.fields scope n ++ others) (c.oneofs.zipIdx n) = (c.group? n).toList := by
  have hmembers : 0 < c.oneofs.length →
      membersAt n (c.fields scope n ++ others) = membersAt n (c.fields scope n) := by
    intro hpos
    rw [membersAt_append, alone hpos, List.append_nil]
  cases c with
  | field f =>
    -- The oneof of an `optional` field is left without members, and such oneofs have no group.
    by_cases hopt : f.isProto3Optional
    · have hmembers := hmembers (by simp [oneofs, hopt])
      simp [groupsAmong, groupAmong, hmembers, membersAt_optional hopt, oneofs, hopt, group?]
    · simp [groupsAmong, oneofs, hopt, group?]
  | oneof name members =>
    have hmembers := hmembers Nat.one_pos
    have hplaced : membersAt n ((oneof name members).fields scope n) = placed n members :=
      membersAt_placed n members
    cases members with
    | nil => simp [groupsAmong, groupAmong, hmembers, hplaced, oneofs, group?, placed]
    | cons f rest => simp [groupsAmong, groupAmong, hmembers, hplaced, oneofs, group?, placed]
  | map name number key value => rfl
  | nested m => rfl
  | enumeration e => rfl

/-- Each call adds its own group, whatever calls come behind it. -/
theorem groupsAmong_fieldsFrom (made : ∀ c ∈ calls, c.Made)
    (few : n + (calls.flatMap oneofs).length ≤ 2 ^ 32) :
    groupsAmong (fieldsFrom scope n calls) ((calls.flatMap oneofs).zipIdx n) = groupsFrom n calls := by
  induction calls generalizing n with
  | nil => rfl
  | cons c calls ih =>
    obtain ⟨hc, hcalls⟩ := List.forall_mem_cons.1 made
    rw [List.flatMap_cons, List.length_append] at few
    have hrest := ih (n := n + c.oneofs.length) hcalls (by omega)
    rw [List.flatMap_cons, List.zipIdx_append, groupsAmong_append, fieldsFrom, groupsFrom, ← hrest]
    congr 1
    · apply groupsAmong_call
      intro hpos
      exact membersAt_fieldsFrom hcalls (by omega) (by omega)
    · -- The oneofs of the calls behind have no members in this one.
      apply congrArg (List.filter _)
      apply List.map_congr_left
      intro p hp
      have hbehind := List.le_snd_of_mem_zipIdx hp
      have hbelow := List.snd_lt_add_of_mem_zipIdx hp
      rw [groupAmong, membersAt_append, membersAt_fields hc hbehind (by omega), List.nil_append,
        groupAmong]

/-! ## Map entries -/

def entryName? : BuildCall → Option String
  | map name _ _ _ => some (mapEntryName name)
  | _ => none

def nestedName? : BuildCall → Option String
  | nested m => m.name
  | _ => none

/-- The map entries that calls add have names that no other nested message has. -/
structure DistinctEntries (calls : List BuildCall) : Prop where
  nodup : (calls.filterMap entryName?).Nodup
  apart : ∀ name ∈ calls.filterMap nestedName?, name ∉ calls.filterMap entryName?

def isNamed (scope typeName : String) (m : MessageDescriptor) : Bool :=
  m.name.map (scope ++ "." ++ ·) = some typeName

theorem isNamed_iff {name : String} {m : MessageDescriptor} :
    isNamed scope (scope ++ "." ++ name) m ↔ m.name = some name := by
  cases h : m.name with
  | none => simp [isNamed, h]
  | some other => simp [isNamed, h, String.append_right_inj]

/-- A call adds a nested message of a name only if that is the name of its entry or of the message
    that it was given. -/
theorem filter_nestedTypes_eq_nil {name : String} (hentry : c.entryName? ≠ some name)
    (hnested : c.nestedName? ≠ some name) :
    c.nestedTypes.filter (isNamed scope (scope ++ "." ++ name)) = [] := by
  apply List.filter_eq_nil_iff.2
  intro m hm hnamed
  have hname := isNamed_iff.1 hnamed
  cases c with
  | map other number key value =>
    rw [nestedTypes, List.mem_singleton] at hm
    subst hm
    exact hentry hname
  | nested inner =>
    rw [nestedTypes, List.mem_singleton] at hm
    subst hm
    exact hnested hname
  | field f => cases hm
  | oneof other members => cases hm
  | enumeration e => cases hm

/-- Of the nested messages that calls add, the entry of a map field alone has its name. -/
theorem filter_nestedTypes_of_mem (distinct : DistinctEntries calls) {name : String} {number : Int32}
    {key : FieldKind} {value : FieldDescriptor} (hmem : map name number key value ∈ calls) :
    (calls.flatMap nestedTypes).filter (isNamed scope (scope ++ "." ++ mapEntryName name)) =
      [entry name key value] := by
  obtain ⟨before, after, rfl⟩ := List.append_of_mem hmem
  obtain ⟨hnodup, hapart⟩ := distinct
  -- No other call adds an entry of this name, and none is given a message of it.
  have hothers : ∀ c ∈ before ++ after,
      c.nestedTypes.filter (isNamed scope (scope ++ "." ++ mapEntryName name)) = [] := by
    intro c hc
    have hc' : c ∈ before ++ map name number key value :: after := by
      rcases List.mem_append.1 hc with hc | hc <;> simp [hc]
    apply filter_nestedTypes_eq_nil
    · intro hentry
      simp only [List.filterMap_append, List.filterMap_cons, entryName?, List.nodup_middle,
        List.nodup_cons] at hnodup
      rw [← List.filterMap_append] at hnodup
      exact hnodup.1 (List.mem_filterMap.2 ⟨c, hc, hentry⟩)
    · intro hnested
      refine hapart _ (List.mem_filterMap.2 ⟨c, hc', hnested⟩) (List.mem_filterMap.2 ⟨_, hmem, rfl⟩)
  have hempty : ∀ cs : List BuildCall, (∀ c ∈ cs, c ∈ before ++ after) →
      (cs.flatMap nestedTypes).filter (isNamed scope (scope ++ "." ++ mapEntryName name)) = [] := by
    intro cs hcs
    rw [List.filter_flatMap]
    exact List.flatMap_eq_nil_iff.2 fun c hc => hothers c (hcs c hc)
  rw [List.flatMap_append, List.flatMap_cons, List.filter_append, List.filter_append,
    hempty before (by simp +contextual), hempty after (by simp +contextual)]
  simp [nestedTypes, isNamed, entry]

/-! ## Linked descriptors -/

theorem fieldsFrom_append (n : Nat) (calls calls' : List BuildCall) :
    fieldsFrom scope n (calls ++ calls') =
      fieldsFrom scope n calls ++ fieldsFrom scope (n + (calls.flatMap oneofs).length) calls' := by
  induction calls generalizing n with
  | nil => rw [List.nil_append, fieldsFrom, List.nil_append, List.flatMap_nil, List.length_nil,
      Nat.add_zero]
  | cons c calls ih =>
    rw [List.cons_append, fieldsFrom, fieldsFrom, ih, List.append_assoc, List.flatMap_cons,
      List.length_append, Nat.add_assoc]

/-- What a call adds is among what all calls add. -/
theorem mem_fieldsFrom_of_mem (scope : String) (n : Nat) (hmem : c ∈ calls) :
    ∃ n', ∀ f ∈ c.fields scope n', f ∈ fieldsFrom scope n calls := by
  obtain ⟨before, after, rfl⟩ := List.append_of_mem hmem
  refine ⟨n + (before.flatMap oneofs).length, fun f hf => ?_⟩
  rw [fieldsFrom_append, fieldsFrom]
  exact List.mem_append_right _ (List.mem_append_left _ hf)

/-- An `optional` field is alone in the oneof behind those that were added before it. -/
theorem eq_of_oneofIndex_optional {before after : List BuildCall}
    (made : ∀ c ∈ before ++ field f :: after, c.Made)
    (few : ((before ++ field f :: after).flatMap oneofs).length ≤ 2 ^ 32) (hopt : f.isProto3Optional)
    {k : Nat} {g : FieldDescriptor}
    (hg : (fieldsFrom scope 0 (before ++ field f :: after))[k]? = some g)
    (hindex : g.oneofIndex = some (Int32.ofNat (before.flatMap oneofs).length)) :
    k = (fieldsFrom scope 0 before).length := by
  have hone : (field f).oneofs.length = 1 := by simp [oneofs, hopt]
  have hfields : ∀ n, ((field f).fields scope n).length = 1 := fun _ => rfl
  rw [List.flatMap_append, List.flatMap_cons, List.length_append, List.length_append] at few
  have hbefore : ∀ c ∈ before, c.Made := fun c hc => made c (List.mem_append_left _ hc)
  have hafter : ∀ c ∈ after, c.Made := fun c hc =>
    made c (List.mem_append_right _ (List.mem_cons_of_mem _ hc))
  rw [fieldsFrom_append, fieldsFrom] at hg
  -- A field with this index was added neither before nor after.
  by_contra hne
  rcases Nat.lt_or_gt_of_ne hne with hlt | hgt
  · -- The fields in front are in oneofs in front.
    rw [List.getElem?_append_left hlt] at hg
    obtain ⟨p, -, hp, hsame⟩ :=
      oneofIndex_of_mem_fieldsFrom hbefore (List.mem_of_getElem? hg) hindex
    have := eq_of_int32_eq (by omega) (by omega) hsame
    omega
  · -- The fields behind are in oneofs behind.
    rw [List.getElem?_append_right (Nat.le_of_lt hgt), List.getElem?_append_right (by rw [hfields]; omega)] at hg
    obtain ⟨p, hp, hlt, hsame⟩ :=
      oneofIndex_of_mem_fieldsFrom hafter (List.mem_of_getElem? hg) hindex
    have := eq_of_int32_eq (by omega) (by omega) hsame
    omega

end BuildCall

namespace MessageDescriptor

open BuildCall

structure Linked (name scope : String) (calls : List BuildCall) : Prop where
  /-- An `optional` field that was added points to a oneof named after it, and no other field
      does. -/
  optional : ∀ before f after, calls = before ++ .field f :: after → f.isProto3Optional →
    ∃ index : Int32, index.toInt = (built name scope before).oneofs.length ∧
      (built name scope calls).oneofs[(built name scope before).oneofs.length]? =
        some f.ownOneof ∧
      (built name scope calls).fields[(built name scope before).fields.length]? =
        some { f with oneofIndex := some index } ∧
      ∀ (k : Nat) (g : FieldDescriptor), (built name scope calls).fields[k]? = some g →
        g.oneofIndex = some index → k = (built name scope before).fields.length
  /-- The groups are those of the oneofs that were declared with a member, in the order of the
      calls. -/
  groups : (built name scope calls).oneofGroups = groupsFrom 0 calls
  /-- A field that is in a oneof is in one that the message has. -/
  within : ∀ f ∈ (built name scope calls).fields, ∀ index, f.oneofIndex = some index →
    ∃ p : Nat, index.toInt = p ∧ p < (built name scope calls).oneofs.length
  /-- A map field refers to one nested message, the entry with the key and the value that the
      field was given. -/
  entries : ∀ mapName number key value, .map mapName number key value ∈ calls →
    ∃ f ∈ (built name scope calls).fields, f.name = some mapName ∧ f.number = some number ∧
      f.isRepeated ∧ f.kind? = some .message ∧ ∃ typeName, f.typeName = some typeName ∧
      ∃ e, (built name scope calls).nestedTypes.filter (isNamed scope typeName) = [e] ∧
        e.isMapEntry ∧ ∃ k v, e.fields = [k, v] ∧ k.number = some 1 ∧ k.kind? = some key ∧
          v.number = some 2 ∧ v.type = value.type ∧ v.typeName = value.typeName

variable {name scope : String} {calls : List BuildCall}

/-- The groups of a message are what its fields and its oneofs make them. -/
theorem oneofGroups_eq (m : MessageDescriptor) :
    m.oneofGroups = groupsAmong m.fields m.oneofs.zipIdx :=
  rfl

/-- Calls build messages that are linked, as long as an index, a signed integer of 32 bits, has
    room for the positions of the oneofs. -/
theorem built_linked (made : ∀ c ∈ calls, c.Made) (distinct : DistinctEntries calls)
    (few : (built name scope calls).oneofs.length ≤ 2 ^ 31) : Linked name scope calls where
  optional := by
    rintro before f after rfl hopt
    simp only [built_eq] at few ⊢
    have hpos : (before.flatMap BuildCall.oneofs).length < 2 ^ 31 := by
      simp only [List.flatMap_append, List.flatMap_cons, List.length_append, BuildCall.oneofs, hopt,
        if_true, List.length_singleton] at few
      omega
    refine ⟨Int32.ofNat (before.flatMap BuildCall.oneofs).length, Int32.toInt_ofNat_of_lt hpos, ?_, ?_, ?_⟩
    · simp [BuildCall.oneofs, hopt]
    · simp [fieldsFrom_append, fieldsFrom, BuildCall.fields, hopt]
    · intro k g hg hindex
      exact eq_of_oneofIndex_optional made (by omega) hopt hg hindex
  groups := by
    rw [oneofGroups_eq]
    simp only [built_eq] at few ⊢
    exact groupsAmong_fieldsFrom made (by omega)
  within := by
    intro f hf index hindex
    simp only [built_eq] at few hf ⊢
    obtain ⟨p, -, hlt, rfl⟩ := oneofIndex_of_mem_fieldsFrom made hf hindex
    exact ⟨p, Int32.toInt_ofNat_of_lt (by omega), by omega⟩
  entries := by
    intro mapName number key value hmem
    simp only [built_eq]
    obtain ⟨n, hfields⟩ := mem_fieldsFrom_of_mem scope 0 hmem
    exact ⟨_, hfields _ (List.mem_singleton_self _), rfl, rfl, rfl, rfl, _, rfl, _,
      filter_nestedTypes_of_mem distinct hmem, rfl, _, _, rfl, rfl, FieldKind.ofCode?_code key, rfl,
      rfl, rfl⟩

def hatCalls : List BuildCall :=
  [.field (.ofKind "size" 1 (.scalar .uint32)),
    .oneof "band" [.ofKind "ribbon" 2 (.scalar .string), .ofKind "cord" 3 (.scalar .uint32)],
    .field (FieldDescriptor.ofKind "brim" 4 (.scalar .double)).asOptional,
    .map "worn_on" 5 (.scalar .string) (.ofMessage "worn_on" 5 ".Day"),
    .nested (named "Lining"),
    .oneof "plume" [],
    .oneof "crown" [.ofEnum "shape" 6 ".Shape"]]

theorem built_linked_hatCalls :
    (∀ c ∈ hatCalls, c.Made) ∧ DistinctEntries hatCalls ∧
      (built "Hat" ".Hat" hatCalls).oneofs.length ≤ 2 ^ 31 ∧ Linked "Hat" ".Hat" hatCalls ∧
      (built "Hat" ".Hat" hatCalls).oneofGroups.map (·.index) = [0, 3] := by
  have made : ∀ c ∈ hatCalls, c.Made := by
    simp [hatCalls, Made, FieldDescriptor.Made.ofKind, FieldDescriptor.Made.ofEnum,
      FieldDescriptor.Made.ofMessage, FieldDescriptor.Made.asOptional]
  have distinct : DistinctEntries hatCalls := ⟨by decide, by decide⟩
  have few : (built "Hat" ".Hat" hatCalls).oneofs.length ≤ 2 ^ 31 := by decide
  exact ⟨made, distinct, few, built_linked made distinct few, by decide⟩

/-- The bound on the number of oneofs is exact: an `optional` field behind more of them has no
    index that points to its oneof. -/
theorem not_linked_of_many {before : List BuildCall} {f : FieldDescriptor}
    (many : 2 ^ 31 ≤ (built name scope before).oneofs.length) (hopt : f.isProto3Optional) :
    ¬ Linked name scope (before ++ [.field f]) := by
  intro h
  obtain ⟨index, hindex, -⟩ := h.optional before f [] rfl hopt
  have := index.toInt_lt
  omega

end MessageDescriptor

end Protobuf
