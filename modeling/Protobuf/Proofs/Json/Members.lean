import Mathlib.Data.List.Nodup
import Protobuf.Schema.JsonMapping

/-! # The members of objects

An object whose keys are distinct says one thing under each of them, in whatever order
its members stand.

* `find?_of_mem`, `find?_perm`, `find?_append_left`, `find?_append_right`: what is found
  under a key.
* `gather_eq`: the objects that are written.
* `Json.Members.Tells`: what an object says about a field that has two names.
* `Json.mergeMember_eq`, `Json.memberElements_eq`, `Json.memberEntries_eq`: reading the
  value of a key, if there is one.
-/

namespace Protobuf

variable {Ref : Type}

namespace Json.Members

variable {ms ms' : Members} {key : String} {v : Json}

theorem find?_of_not_mem (h : key ∉ ms.map (·.1)) : ms.find? key = none := by
  induction ms with
  | nil => rfl
  | cons e rest ih =>
    obtain ⟨k, w⟩ := e
    rw [List.map_cons, List.mem_cons, not_or] at h
    rw [find?, if_neg (Ne.symm h.1), ih h.2]

theorem mem_of_find? (h : ms.find? key = some v) : (key, v) ∈ ms := by
  induction ms with
  | nil => cases h
  | cons e rest ih =>
    obtain ⟨k, w⟩ := e
    rw [find?] at h
    by_cases hk : k = key
    · rw [if_pos hk] at h
      cases hk
      cases h
      exact List.mem_cons_self
    · rw [if_neg hk] at h
      exact List.mem_cons_of_mem _ (ih h)

theorem find?_of_mem (distinct : (ms.map (·.1)).Nodup) (h : (key, v) ∈ ms) :
    ms.find? key = some v := by
  induction ms with
  | nil => cases h
  | cons e rest ih =>
    obtain ⟨k, w⟩ := e
    rw [List.map_cons, List.nodup_cons] at distinct
    rw [find?]
    rcases List.mem_cons.1 h with heq | hmem
    · cases heq
      exact if_pos rfl
    · have hne : k ≠ key := by
        rintro rfl
        exact distinct.1 (List.mem_map.2 ⟨_, hmem, rfl⟩)
      rw [if_neg hne, ih distinct.2 hmem]

theorem find?_perm (distinct : (ms.map (·.1)).Nodup) (h : ms.Perm ms') :
    ms'.find? key = ms.find? key := by
  have distinct' : (ms'.map (·.1)).Nodup := (h.map _).nodup_iff.1 distinct
  cases hfind : ms.find? key with
  | none =>
    cases hfind' : ms'.find? key with
    | none => rfl
    | some v =>
      rw [find?_of_mem distinct (h.mem_iff.2 (mem_of_find? hfind'))] at hfind
      cases hfind
  | some v => exact find?_of_mem distinct' (h.mem_iff.1 (mem_of_find? hfind))

theorem find?_append_right (h : key ∉ ms.map (·.1)) : find? (ms ++ ms') key = ms'.find? key := by
  induction ms with
  | nil => rfl
  | cons e rest ih =>
    obtain ⟨k, w⟩ := e
    rw [List.map_cons, List.mem_cons, not_or] at h
    rw [List.cons_append, find?, if_neg (Ne.symm h.1), ih h.2]

theorem find?_append_left (h : key ∉ ms'.map (·.1)) : find? (ms ++ ms') key = ms.find? key := by
  induction ms with
  | nil => exact find?_of_not_mem h
  | cons e rest ih =>
    obtain ⟨k, w⟩ := e
    rw [List.cons_append, find?, find?, ih]

theorem keys_insert_of_mem (h : key ∈ ms.map (·.1)) : (ms.insert key v).map (·.1) = ms.map (·.1) := by
  induction ms with
  | nil => cases h
  | cons e rest ih =>
    obtain ⟨k, w⟩ := e
    rw [insert]
    split
    · rfl
    · rename_i hne
      have hrest : key ∈ rest.map (·.1) := (List.mem_cons.1 h).resolve_left fun heq => hne heq.symm
      rw [List.map_cons, List.map_cons, ih hrest]

theorem insert_of_not_mem (h : key ∉ ms.map (·.1)) : ms.insert key v = ms ++ [(key, v)] := by
  induction ms with
  | nil => rfl
  | cons e rest ih =>
    obtain ⟨k, w⟩ := e
    rw [List.map_cons, List.mem_cons, not_or] at h
    rw [insert, if_neg (Ne.symm h.1), ih h.2, List.cons_append]

/-! ## Two names -/

/-- What an object says about a field: that much under its JSON name, and nothing under the
    name it has in the schema, should that be another. -/
structure Tells (ms : Members) (jsonName protoName : String) (said : Option Json) : Prop where
  json : ms.find? jsonName = said
  proto : protoName ≠ jsonName → ms.find? protoName = none

variable {jsonName protoName : String}

theorem Tells.field?_some (h : ms.Tells jsonName protoName (some v)) (hv : v.isNull = false) :
    ms.field? jsonName protoName = .ok (some (jsonName, v)) := by
  have hjson : ms.present? jsonName = some v := by
    rw [present?, h.json, Option.filter_some, hv]
    rfl
  -- A field that is given under both of its names is refused.
  have hone : ¬(protoName ≠ jsonName ∧ (ms.present? protoName).isSome) := by
    rintro ⟨hne, hboth⟩
    rw [present?, h.proto hne] at hboth
    cases hboth
  unfold field?
  rw [hjson]
  exact if_neg hone

theorem Tells.field?_none (h : ms.Tells jsonName protoName none) :
    ms.field? jsonName protoName = .ok none := by
  have hjson : ms.present? jsonName = none := by
    rw [present?, h.json]
    rfl
  unfold field?
  rw [hjson]
  by_cases hsame : protoName = jsonName
  · exact if_pos hsame
  · simp only [if_neg hsame, present?, h.proto hsame]
    rfl

end Json.Members

/-- Members with distinct keys are gathered in their order. -/
theorem gather_eq (ms : Json.Members) {acc : Json.Members} (distinct : ((acc ++ ms).map (·.1)).Nodup) :
    gather (ms.map fun e => (e.1, .ok e.2)) acc = .ok (.object (acc ++ ms)) := by
  induction ms generalizing acc with
  | nil => rw [List.append_nil]; rfl
  | cons e rest ih =>
    have hnew : e.1 ∉ acc.map (·.1) := by
      rw [List.map_append, List.map_cons] at distinct
      intro hmem
      exact (List.nodup_append.1 distinct).2.2 _ hmem _ List.mem_cons_self rfl
    -- A member with a new key goes behind those that were gathered before.
    have hsplit : acc ++ e :: rest = acc ++ [(e.1, e.2)] ++ rest := by simp
    rw [hsplit] at distinct ⊢
    rw [List.map_cons, gather, Json.Members.insert_of_not_mem hnew, ih distinct]

/-! ## Members that are read -/

namespace Json

def elements (S : Schema Ref) (r : Ref) : Json → Except DecodeError (List Value)
  | .array items => messages S items r
  | _ => .error (.unexpectedJson "array")

def entries (S : Schema Ref) (key : Scalar) (r : Ref) :
    Json → Except DecodeError (List (MapKey × Value))
  | .object members => messageEntries S members key r
  | _ => .error (.unexpectedJson "object")

variable {S : Schema Ref} {ms : Members} {key : String} {v : Json} {mapKey : Scalar} {r : Ref}
  {m : Message}

theorem mergeMember_eq : mergeMember S ms key r m =
    (ms.find? key).elim (.ok (), m) fun v => mergeInto S v r m := by
  induction ms with
  | nil => rfl
  | cons e rest ih =>
    obtain ⟨k, w⟩ := e
    rw [mergeMember, Members.find?, ih]
    split <;> rfl

theorem memberElements_eq :
    memberElements S ms key r = (ms.find? key).elim (.ok []) (elements S r) := by
  induction ms with
  | nil => rfl
  | cons e rest ih =>
    obtain ⟨k, w⟩ := e
    by_cases hk : k = key
    · cases w <;> simp [memberElements, Members.find?, elements, hk]
    · cases w <;> simp [memberElements, Members.find?, hk, ih]

theorem memberEntries_eq :
    memberEntries S ms key mapKey r = (ms.find? key).elim (.ok []) (entries S mapKey r) := by
  induction ms with
  | nil => rfl
  | cons e rest ih =>
    obtain ⟨k, w⟩ := e
    by_cases hk : k = key
    · cases w <;> simp [memberEntries, Members.find?, entries, hk]
    · cases w <;> simp [memberEntries, Members.find?, hk, ih]

theorem mergeMember_of_find? (h : ms.find? key = some v) :
    mergeMember S ms key r m = mergeInto S v r m := by
  rw [mergeMember_eq, h, Option.elim_some]

theorem memberElements_of_find? (h : ms.find? key = some v) :
    memberElements S ms key r = v.elements S r := by
  rw [memberElements_eq, h, Option.elim_some]

theorem memberEntries_of_find? (h : ms.find? key = some v) :
    memberEntries S ms key mapKey r = v.entries S mapKey r := by
  rw [memberEntries_eq, h, Option.elim_some]

end Json

end Protobuf
