import Protobuf.Proofs.Names.Scope
import Protobuf.Proofs.Steps

/-! # Names inside messages and enums

The fields and oneofs of a message have identifiers of their own, and so have the variants of
a oneof and those of an enum that stand for different numbers.

* `MessageNames.Distinct`, `EnumNames.Distinct`: identifiers for all that is declared, no two
  alike.
* `messageNames_ok`, `enumNames_ok`: what a message and an enum are named.
-/

namespace Protobuf

theorem FieldDescriptor.number_eq {f : FieldDescriptor} {p : String × Int32}
    (h : f.nameAndNumber = .ok p) : f.number = some p.2 := by
  obtain ⟨name, -, h⟩ := bind_eq_ok.1 h
  split at h
  · rename_i number hnumber
    cases h
    exact hnumber
  · cases h

/-! ## Oneofs -/

section

variable {m : MessageDescriptor} {g : OneofGroup} {f : FieldDescriptor}

theorem mem_oneofGroups (h : g ∈ m.oneofGroups) :
    g.index < m.oneofs.length ∧ g.members = m.fields.filter fun f =>
      f.isOneofMember && f.oneofIndex = some (Int32.ofNat g.index) := by
  obtain ⟨⟨oneof, index⟩, hmem, rfl⟩ := List.mem_map.1 (List.mem_filter.1 h).1
  exact ⟨by simpa using List.snd_lt_of_mem_zipIdx hmem, rfl⟩

theorem oneof_mem_of_mem_oneofGroups (h : g ∈ m.oneofGroups) :
    g.oneof ∈ m.oneofs := by
  obtain ⟨⟨oneof, index⟩, hmem, rfl⟩ := List.mem_map.1 (List.mem_filter.1 h).1
  exact List.fst_mem_of_mem_zipIdx hmem

theorem mem_members_iff (hg : g ∈ m.oneofGroups) :
    f ∈ g.members ↔ f ∈ m.fields ∧ f.isOneofMember ∧
      f.oneofIndex = some (Int32.ofNat g.index) := by
  rw [(mem_oneofGroups hg).2, List.mem_filter, Bool.and_eq_true, decide_eq_true_eq]

end

/-! ## Messages -/

/-- Identifiers that were claimed in a new scope, one for each of some numbers. -/
structure Named (scope : Scope) (named : List (Int32 × Ident)) (numbers : List (Option Int32)) :
    Prop where
  grants : Scope.Grants {} scope (named.map (·.2.word))
  numbers : named.map (fun e => some e.1) = numbers

theorem Named.nil : Named {} [] [] := ⟨.nil _, rfl⟩

theorem Named.claim {scope : Scope} {named : List (Int32 × Ident)} {numbers : List (Option Int32)}
    (h : Named scope named numbers) (number : Int32) (wish : Ident) :
    Named (scope.claim wish).2 (named ++ [(number, (scope.claim wish).1)])
      (numbers ++ [some number]) where
  grants := by
    rw [List.map_append]
    exact h.grants.append (Scope.grants_claim scope wish)
  numbers := by rw [List.map_append, h.numbers, List.map_singleton]

/-- Steps that claim an identifier for each field name the fields. -/
theorem Named.of_foldlM {fields : List FieldDescriptor} {named : List (Int32 × Ident)} {scope : Scope}
    {step : List (Int32 × Ident) × Scope → FieldDescriptor →
      Except GenerateError (List (Int32 × Ident) × Scope)}
    (h : fields.foldlM step ([], {}) = .ok (named, scope))
    (claims : ∀ named scope f st, step (named, scope) f = .ok st →
      ∃ number wish, f.number = some number ∧
        st = (named ++ [(number, (scope.claim wish).1)], (scope.claim wish).2)) :
    Named scope named (fields.map (·.number)) := by
  refine foldlM_ok (P := fun done st => Named st.2 st.1 (done.map (·.number))) h .nil ?_
  rintro done f ⟨named, scope⟩ st hnamed hstep
  obtain ⟨number, wish, hnumber, rfl⟩ := claims named scope f st hstep
  rw [List.map_append, List.map_singleton, hnumber]
  exact hnamed.claim number wish

theorem nameFields_ok {message : String} {fields : List FieldDescriptor}
    {named : List (Int32 × Ident)} {scope : Scope}
    (h : nameFields message fields = .ok (named, scope)) :
    Named scope named (fields.map (·.number)) := by
  refine .of_foldlM h fun named scope f st hstep => ?_
  obtain ⟨⟨name, number⟩, hf, hstep⟩ := bind_eq_ok.1 hstep
  simp only at hstep
  split at hstep
  · cases hstep
  · cases hstep
    exact ⟨number, .ofField name, FieldDescriptor.number_eq hf, rfl⟩

theorem nameVariants_ok {message : String} {fields : List (Int32 × Ident)}
    {members : List FieldDescriptor} {variants : List (Int32 × Ident)}
    (h : nameVariants message fields members = .ok variants) :
    ∃ scope, Named scope variants (members.map (·.number)) := by
  obtain ⟨⟨variants, scope⟩, hfold, h⟩ := bind_eq_ok.1 h
  cases h
  refine ⟨scope, .of_foldlM hfold fun variants scope f st hstep => ?_⟩
  obtain ⟨⟨name, number⟩, hf, hstep⟩ := bind_eq_ok.1 hstep
  simp only at hstep
  split at hstep
  · cases hstep
  · cases hstep
    exact ⟨number, .ofType (pascalCase name), FieldDescriptor.number_eq hf, rfl⟩

/-- The names of a oneof: a variant for each member, no two alike. -/
structure OneofNames.Distinct (names : Nat × OneofNames) (g : OneofGroup) : Prop where
  index : names.1 = g.index
  members : names.2.variants.map (fun e => some e.1) = g.members.map (·.number)
  variants : (names.2.variants.map (·.2.word)).Nodup

theorem nameOneofs_ok {message : String} {fields : List (Int32 × Ident)} {struct module : Scope}
    {groups : List OneofGroup} {oneofs : List (Nat × OneofNames)}
    (h : nameOneofs message fields struct module groups = .ok oneofs) :
    (∃ s, struct.Grants s (oneofs.map (·.2.field.word))) ∧
      (∃ s, module.Grants s (oneofs.map (·.2.ident.word))) ∧
      List.Forall₂ (fun g o => OneofNames.Distinct o g) groups oneofs := by
  obtain ⟨⟨oneofs, struct', module'⟩, hfold, h⟩ := bind_eq_ok.1 h
  cases h
  have hall := foldlM_ok (P := fun done st => struct.Grants st.2.1 (st.1.map (·.2.field.word)) ∧
    module.Grants st.2.2 (st.1.map (·.2.ident.word)) ∧
    List.Forall₂ (fun g o => OneofNames.Distinct o g) done st.1) hfold
    ⟨.nil _, .nil _, .nil⟩ ?_
  · exact ⟨⟨_, hall.1⟩, ⟨_, hall.2.1⟩, hall.2.2⟩
  rintro done g ⟨oneofs, struct', module'⟩ s' ⟨hstruct, hmodule, hdone⟩ hstep
  obtain ⟨name, -, hstep⟩ := bind_eq_ok.1 hstep
  obtain ⟨variants, hvariants, hstep⟩ := bind_eq_ok.1 hstep
  obtain ⟨scope, hnamed⟩ := nameVariants_ok hvariants
  cases hstep
  simp only [List.map_append, List.map_singleton]
  refine ⟨hstruct.append (Scope.grants_claim _ _), hmodule.append (Scope.grants_claim _ _), ?_⟩
  exact List.rel_append hdone (.cons ⟨rfl, hnamed.numbers, hnamed.grants.nodup⟩ .nil)

def MessageNames.idents (names : MessageNames) : MessageIdents :=
  ⟨names.ident, names.partialIdent, names.module⟩

/-- The names of a message: a struct field for each field that is no oneof member and for each
    oneof, no two alike, and variants for the members of each oneof. -/
structure MessageNames.Distinct (names : MessageNames) (m : MessageDescriptor) : Prop where
  numbers : names.fields.map (fun e => some e.1) =
    (m.fields.filter (!·.isOneofMember)).map (·.number)
  oneofs : List.Forall₂ (fun g o => OneofNames.Distinct o g) m.oneofGroups names.oneofs
  fields : (names.fields.map (·.2.word) ++ names.oneofs.map (·.2.field.word)).Nodup

/-- The idents that a message claimed are kept, its fields and oneofs are told apart, and the
    oneofs claimed theirs in the module of the message. -/
theorem messageNames_ok {m : MessageDescriptor} {idents : MessageIdents} {module : Scope}
    {names : MessageNames} (h : messageNames m idents module = .ok names) :
    names.idents = idents ∧ names.Distinct m ∧
      ∃ s, module.Grants s (names.oneofs.map (·.2.ident.word)) := by
  obtain ⟨⟨fields, struct⟩, hfields, h⟩ := bind_eq_ok.1 h
  obtain ⟨oneofs, honeofs, h⟩ := bind_eq_ok.1 h
  have hnamed := nameFields_ok hfields
  obtain ⟨⟨s, hstruct⟩, hmodule, hdistinct⟩ := nameOneofs_ok honeofs
  simp only at h
  split at h
  · cases h
  · cases h
    exact ⟨rfl, ⟨hnamed.numbers, hdistinct, (hnamed.grants.append hstruct).nodup⟩, hmodule⟩

/-! ## Enums -/

structure EnumNames.Distinct (names : EnumNames) (e : EnumDescriptor) : Prop where
  values : names.values.length = e.values.length
  variants : ∀ p ∈ e.values.zip names.values, ∀ q ∈ e.values.zip names.values,
    p.1.number ≠ q.1.number → p.2.ident.word ≠ q.2.ident.word

section

variable {κ α : Type} [DecidableEq κ]

theorem mem_of_entryOf? {key : κ} {entries : List (κ × α)} {a : α} (h : entryOf? key entries = some a) :
    (key, a) ∈ entries := by
  obtain ⟨e, he, rfl⟩ := Option.map_eq_some_iff.1 h
  have hkey : e.1 = key := by simpa using List.find?_some he
  exact hkey ▸ List.mem_of_find?_eq_some he

theorem entryOf?_of_mem {key : κ} {entries : List (κ × α)} {a : α}
    (nodup : (entries.map (·.1)).Nodup) (h : (key, a) ∈ entries) : entryOf? key entries = some a := by
  cases hfind : entries.find? (·.1 = key) with
  | none =>
    have hkey := List.find?_eq_none.1 hfind (key, a) h
    simp at hkey
  | some e =>
    have hkey : e.1 = key := by simpa using List.find?_some hfind
    have hsame := List.inj_on_of_nodup_map nodup (List.mem_of_find?_eq_some hfind) h hkey
    rw [entryOf?, hfind, hsame]
    rfl

theorem entryOf?_cons (key key' : κ) (a : α) (entries : List (κ × α)) :
    entryOf? key ((key', a) :: entries) = if key' = key then some a else entryOf? key entries := by
  unfold entryOf?
  rw [List.find?_cons]
  by_cases h : key' = key <;> simp [h]

theorem entryOf?_append_left {key : κ} {entries rest : List (κ × α)} {a : α}
    (h : entryOf? key entries = some a) : entryOf? key (entries ++ rest) = some a := by
  obtain ⟨e, he, rfl⟩ := Option.map_eq_some_iff.1 h
  rw [entryOf?, List.find?_append, he]
  rfl

theorem entryOf?_append_new {key : κ} {entries : List (κ × α)} (h : entryOf? key entries = none)
    (a : α) : entryOf? key (entries ++ [(key, a)]) = some a := by
  have hnone : entries.find? (·.1 = key) = none := by simpa [entryOf?] using h
  simp [entryOf?, List.find?_append, hnone]

end

theorem enumNames_ok {ident : Ident} {e : EnumDescriptor} {names : EnumNames}
    (h : enumNames ident e = .ok names) : names.ident = ident ∧ names.Distinct e := by
  obtain ⟨⟨values, variants, scope⟩, hfold, h⟩ := bind_eq_ok.1 h
  cases h
  -- Each value has the variant that its number is found under.
  have hall := foldlM_ok (P := fun done st => Scope.Grants {} st.2.2 (st.2.1.map (·.2.word)) ∧
    List.Forall₂ (fun v x => ∃ n, v.number = some n ∧ entryOf? n st.2.1 = some x.ident) done st.1)
    hfold ⟨.nil _, .nil⟩ ?_
  · obtain ⟨hgrants, hvalues⟩ := hall
    refine ⟨rfl, hvalues.length_eq.symm, fun p hp q hq hne hword => ?_⟩
    obtain ⟨n, hn, hfind⟩ := List.forall₂_zip hvalues hp
    obtain ⟨k, hk, hfind'⟩ := List.forall₂_zip hvalues hq
    have hsame := List.inj_on_of_nodup_map hgrants.nodup (mem_of_entryOf? hfind)
      (mem_of_entryOf? hfind') hword
    have hnumber : n = k := (Prod.mk.inj hsame).1
    exact hne (by rw [hn, hk, hnumber])
  rintro done v ⟨values, variants, scope⟩ s' ⟨hgrants, hdone⟩ hstep
  obtain ⟨name, -, hstep⟩ := bind_eq_ok.1 hstep
  simp only at hstep
  split at hstep
  · rename_i number hnumber
    obtain ⟨number, hpure, hstep⟩ := bind_eq_ok.1 hstep
    cases hpure
    split at hstep
    · -- An alias has the variant of the value that has its number.
      rename_i variant hvariant
      cases hstep
      exact ⟨hgrants, List.rel_append hdone (.cons ⟨number, hnumber, hvariant⟩ .nil)⟩
    · rename_i hvariant
      cases hstep
      simp only [List.map_append, List.map_singleton]
      refine ⟨hgrants.append (Scope.grants_claim _ _), List.rel_append ?_ (.cons ?_ .nil)⟩
      · refine hdone.imp fun v x hv => ?_
        obtain ⟨n, hn, hfind⟩ := hv
        exact ⟨n, hn, entryOf?_append_left hfind⟩
      · exact ⟨number, hnumber, entryOf?_append_new hvariant _⟩
  · obtain ⟨number, hthrow, -⟩ := bind_eq_ok.1 hstep
    cases hthrow

end Protobuf
