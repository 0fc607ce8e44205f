import Protobuf.Proofs.Names.Declarations

/-! # Numbers of named fields

A message that is named has no two fields with one number: neither among the fields of its
struct and the variants of a oneof, nor across them.

* `entryOf?_eq_none_iff`, `entryOf?_of_count`: what a table finds under a key.
* `messageNames_numbers`: the numbers that a message is named for are distinct.
* `NameTable.ofFiles_named`: the names that were entered for a message are its own.
-/

namespace Protobuf

section

variable {κ α : Type} [DecidableEq κ] {key : κ} {entries : List (κ × α)}

theorem entryOf?_eq_none_iff : entryOf? key entries = none ↔ key ∉ entries.map (·.1) := by
  rw [entryOf?, Option.map_eq_none_iff, List.find?_eq_none, List.mem_map]
  constructor
  · rintro h ⟨e, he, hkey⟩
    exact h e he (by simpa using hkey)
  · intro h e he hkey
    exact h ⟨e, he, by simpa using hkey⟩

theorem isSome_entryOf?_iff : (entryOf? key entries).isSome ↔ key ∈ entries.map (·.1) := by
  rw [Option.isSome_iff_ne_none, ne_eq, entryOf?_eq_none_iff, not_not]

/-- An entry is found under a key that no other entry has. -/
theorem entryOf?_of_count {a : α} (h : (key, a) ∈ entries)
    (once : (entries.map (·.1)).count key ≤ 1) : entryOf? key entries = some a := by
  induction entries with
  | nil => cases h
  | cons e entries ih =>
    obtain ⟨key', a'⟩ := e
    rw [entryOf?_cons]
    rw [List.map_cons, List.count_cons] at once
    rcases List.mem_cons.1 h with h | h
    · cases h
      rw [if_pos rfl]
    · -- The key is in the rest, so the entry in front has another one.
      have hrest : 1 ≤ (entries.map (·.1)).count key :=
        List.count_pos_iff.2 (List.mem_map_of_mem (f := (·.1)) h)
      have hne : key' ≠ key := by
        rintro rfl
        simp only [beq_self_eq_true, if_true] at once
        omega
      rw [if_neg hne]
      exact ih h (by omega)

end

/-! ## Messages -/

/-- Numbers are distinct if none of them was seen before. -/
theorem repeatedNumber?_eq_none {numbers seen : List Int32}
    (h : repeatedNumber? seen numbers = none) : numbers.Nodup ∧ ∀ n ∈ numbers, n ∉ seen := by
  induction numbers generalizing seen with
  | nil => simp
  | cons n numbers ih =>
    unfold repeatedNumber? at h
    split at h
    · cases h
    · rename_i hseen
      obtain ⟨hnodup, hfresh⟩ := ih h
      simp only [List.mem_cons, not_or] at hfresh
      refine ⟨List.nodup_cons.2 ⟨fun hn => (hfresh n hn).1 rfl, hnodup⟩, ?_⟩
      rw [List.forall_mem_cons]
      exact ⟨by simpa using hseen, fun k hk => (hfresh k hk).2⟩

theorem nameFields_numbers {message : String} {fields : List FieldDescriptor}
    {named : List (Int32 × Ident)} {scope : Scope}
    (h : nameFields message fields = .ok (named, scope)) : (named.map (·.1)).Nodup := by
  refine foldlM_ok (P := fun _ st => (st.1.map (·.1)).Nodup) h List.nodup_nil ?_
  rintro _ f ⟨named, scope⟩ st hnodup hstep
  obtain ⟨⟨name, number⟩, -, hstep⟩ := bind_eq_ok.1 hstep
  simp only at hstep
  split at hstep
  · cases hstep
  · rename_i hnew
    cases hstep
    rw [List.map_append, List.map_singleton]
    exact List.concat_eq_append ▸ hnodup.concat (mt isSome_entryOf?_iff.2 hnew)

/-- The variants of a oneof have none of the numbers that fields have. -/
theorem nameVariants_numbers {message : String} {fields : List (Int32 × Ident)}
    {members : List FieldDescriptor} {variants : List (Int32 × Ident)}
    (h : nameVariants message fields members = .ok variants) :
    (variants.map (·.1)).Disjoint (fields.map (·.1)) := by
  obtain ⟨⟨variants, scope⟩, hfold, h⟩ := bind_eq_ok.1 h
  cases h
  refine foldlM_ok (P := fun _ st => (st.1.map (·.1)).Disjoint (fields.map (·.1))) hfold
    (List.disjoint_nil_left _) ?_
  rintro _ f ⟨variants, scope⟩ st hdisjoint hstep
  obtain ⟨⟨name, number⟩, -, hstep⟩ := bind_eq_ok.1 hstep
  simp only at hstep
  split at hstep
  · cases hstep
  · rename_i hnew
    simp only [Bool.or_eq_true, isSome_entryOf?_iff, not_or] at hnew
    cases hstep
    rw [List.map_append, List.map_singleton, List.disjoint_append_left]
    exact ⟨hdisjoint, List.singleton_disjoint.2 hnew.1⟩

theorem nameOneofs_numbers {message : String} {fields : List (Int32 × Ident)} {struct module : Scope}
    {groups : List OneofGroup} {oneofs : List (Nat × OneofNames)}
    (h : nameOneofs message fields struct module groups = .ok oneofs) :
    ∀ o ∈ oneofs, (o.2.variants.map (·.1)).Disjoint (fields.map (·.1)) := by
  obtain ⟨⟨oneofs, struct', module'⟩, hfold, h⟩ := bind_eq_ok.1 h
  cases h
  refine foldlM_ok (P := fun _ st => ∀ o ∈ st.1,
    (o.2.variants.map (·.1)).Disjoint (fields.map (·.1))) hfold (by simp) ?_
  rintro _ g ⟨oneofs, struct', module'⟩ st hdone hstep
  obtain ⟨name, -, hstep⟩ := bind_eq_ok.1 hstep
  obtain ⟨variants, hvariants, hstep⟩ := bind_eq_ok.1 hstep
  cases hstep
  rw [List.forall_mem_append, List.forall_mem_singleton]
  exact ⟨hdone, nameVariants_numbers hvariants⟩

/-- The numbers of a oneof are looked through in ascending order. -/
theorem sortedNumbers_perm (oneofs : List (Nat × OneofNames)) :
    (oneofs.flatMap fun o => (o.2.variants.map (·.1)).mergeSort fun a b => a ≤ b).Perm
      (oneofs.flatMap (·.2.variants.map (·.1))) :=
  List.Perm.flatMap_left _ fun _ _ => List.mergeSort_perm _ _

def MessageNames.numbers (names : MessageNames) : List Int32 :=
  names.fields.map (·.1) ++ names.oneofs.flatMap (·.2.variants.map (·.1))

theorem messageNames_numbers {m : MessageDescriptor} {idents : MessageIdents} {module : Scope}
    {names : MessageNames} (h : messageNames m idents module = .ok names) : names.numbers.Nodup := by
  obtain ⟨⟨fields, struct⟩, hfields, h⟩ := bind_eq_ok.1 h
  obtain ⟨oneofs, honeofs, h⟩ := bind_eq_ok.1 h
  have hdisjoint := nameOneofs_numbers honeofs
  simp only at h
  split at h
  · cases h
  · rename_i hrepeated
    cases h
    refine List.nodup_append'.2 ⟨nameFields_numbers hfields,
      (sortedNumbers_perm oneofs).nodup_iff.1 (repeatedNumber?_eq_none hrepeated).1, ?_⟩
    intro n hn hvariant
    obtain ⟨o, ho, hn'⟩ := List.mem_flatMap.1 hvariant
    exact hdisjoint o ho hn' hn

/-! ## Entered names -/

namespace NameTable

variable {ctx : FileContext} {scope : String} {module : List Ident} {t t' : NameTable}
  {messages : List (MessageDescriptor × MessageIdents)} {enums : List (EnumDescriptor × Ident)}

/-- A message has an entry, and its names are those that were found for it. -/
def Names (t : NameTable) (e : String × MessageDescriptor) (names : MessageNames) : Prop :=
  (e.1, names) ∈ t.messages ∧ ∃ idents module, messageNames e.2 idents module = .ok names

theorem Entered.named (h : Entered ctx scope module messages enums t t') :
    ∀ e ∈ declaredIn scope messages, ∃ names, t'.Names e names := by
  induction h with
  | done => simp [declaredIn]
  | mapEntry _ _ _ ih => exact ih
  | enum _ _ _ ih => exact ih
  | message hname hnested _ _ _ hnames rest ihBody ihRest =>
    rw [declaredIn_eq hnested] at ihBody
    intro e he
    rw [declaredIn_cons hname, List.cons_append, List.mem_cons, List.mem_append] at he
    rcases he with rfl | he | he
    · exact ⟨_, rest.grows.messages List.mem_cons_self, _, _, hnames⟩
    · obtain ⟨names, hmem, hown⟩ := ihBody e he
      exact ⟨names, List.subset_of_cons_subset rest.grows.messages hmem, hown⟩
    · exact ihRest e he

theorem FilesEntered.named {files : List FileDescriptor} {scopes : List (Ident × Scope)}
    (h : FilesEntered files scopes t t') :
    ∀ e ∈ files.flatMap (·.declaredMessages), ∃ names, t'.Names e names := by
  induction h with
  | done => simp
  | file hmessages _ _ entered rest ih =>
    have hfile := entered.named
    rw [declaredIn_eq hmessages] at hfile
    intro e he
    rcases List.mem_append.1 he with he | he
    · obtain ⟨names, hmem, hown⟩ := hfile e he
      exact ⟨names, rest.grows.messages hmem, hown⟩
    · exact ih e he

/-- A table has names for each message of the schema, and for no other. -/
theorem ofFiles_named {settings : Settings} {s : DescriptorSet} (h : ofFiles settings s = .ok t) :
    (∀ e ∈ s.declaredMessages, ∃ names, t.Names e names) ∧
      ∀ typeName, (t.messages.map (·.1)).count typeName =
        (s.declaredMessages.map (·.1)).count typeName := by
  obtain ⟨t, hfiles, rfl⟩ := ofFiles_ok h
  have entered := FilesEntered.of_addFiles hfiles
  exact ⟨entered.named, entered.count_messages⟩

end NameTable

end Protobuf
