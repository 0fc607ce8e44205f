import Protobuf.Proofs.Names.Entering

/-! # Where generated types lie

Each module holds its types under words of its own, so the words that lead to a generated
type lead to no other.

* `TypePath.words?`: the words that lead to a generated type.
* `Placed`: types in the places that a condition allows, no two of them in one place.
* `NameTable.Entered.placed`: where the types of a module are placed.
-/

namespace Protobuf

def TypePath.words? : TypePath → Option (List String)
  | .generated module ident => some (module.map (·.word) ++ [ident.word])
  | .external _ => none
  | .suppressed => none

theorem FileContext.words?_pathOf {ctx : FileContext} {typeName : String} {module : List Ident}
    {ident : Ident} {path : List String}
    (h : (ctx.pathOf typeName module ident).words? = some path) :
    path = module.map (·.word) ++ [ident.word] := by
  unfold pathOf at h
  split at h
  · cases h
  split at h
  · cases h
  split at h
  · cases h
  · exact (Option.some.inj h).symm

/-! ## Places -/

/-- Types that are generated where `Q` allows, and not in one place unless they have one
    name. -/
structure Placed (Q : List String → Prop) (types : List (String × TypeInfo)) : Prop where
  within : ∀ e ∈ types, ∀ path, e.2.path.words? = some path → Q path
  unique : ∀ e ∈ types, ∀ e' ∈ types, ∀ path, e.2.path.words? = some path →
    e'.2.path.words? = some path → e.1 = e'.1

variable {Q Q' : List String → Prop} {types types' : List (String × TypeInfo)}

theorem Placed.nil : Placed Q [] := ⟨by simp, by simp⟩

theorem Placed.mono (h : Placed Q types) (imp : ∀ path, Q path → Q' path) : Placed Q' types where
  within e he path hpath := imp path (h.within e he path hpath)
  unique := h.unique

theorem Placed.append (h : Placed Q types) (h' : Placed Q' types')
    (disjoint : ∀ path, Q path → ¬Q' path) :
    Placed (fun path => Q path ∨ Q' path) (types ++ types') where
  within e he path hpath := by
    rcases List.mem_append.1 he with he | he
    · exact .inl (h.within e he path hpath)
    · exact .inr (h'.within e he path hpath)
  unique e he e' he' path hpath hpath' := by
    rcases List.mem_append.1 he with he | he <;> rcases List.mem_append.1 he' with he' | he'
    · exact h.unique e he e' he' path hpath hpath'
    · exact absurd (h'.within e' he' path hpath') (disjoint path (h.within e he path hpath))
    · exact absurd (h'.within e he path hpath) (disjoint path (h.within e' he' path hpath'))
    · exact h'.unique e he e' he' path hpath hpath'

theorem Placed.single {e : String × TypeInfo} (within : ∀ path, e.2.path.words? = some path → Q path) :
    Placed Q [e] where
  within e' he' := by
    rw [List.mem_singleton.1 he']
    exact within
  unique e₁ he₁ e₂ he₂ _ _ _ := by rw [List.mem_singleton.1 he₁, List.mem_singleton.1 he₂]

def Under (module : List Ident) (words path : List String) : Prop :=
  ∃ word ∈ words, module.map (·.word) ++ [word] <+: path

variable {module : List Ident} {words words' path : List String}

theorem Under.subset (h : Under module words path) (subset : words ⊆ words') :
    Under module words' path := by
  obtain ⟨word, hword, hprefix⟩ := h
  exact ⟨word, subset hword, hprefix⟩

/-- What lies in a module lies, seen from outside, under the word of the module. -/
theorem Under.outside {i : Ident} (h : Under (module ++ [i]) words path) :
    Under module [i.word] path := by
  obtain ⟨word, -, hprefix⟩ := h
  rw [List.map_append, List.map_singleton] at hprefix
  exact ⟨i.word, List.mem_singleton_self _, (List.prefix_append ..).trans hprefix⟩

theorem not_under_of_disjoint (disjoint : words.Disjoint words') (h : Under module words path) :
    ¬Under module words' path := by
  rintro ⟨word', hword', hprefix'⟩
  obtain ⟨word, hword, hprefix⟩ := h
  have hsame := List.prefix_of_prefix_length_le hprefix hprefix' (by simp)
  have heq := hsame.eq_of_length (by simp)
  have hlast : word = word' := by simpa using List.append_cancel_left heq
  exact disjoint hword (hlast ▸ hword')

namespace NameTable

variable {ctx : FileContext} {scope : String} {t t' : NameTable}
  {messages : List (MessageDescriptor × MessageIdents)} {enums : List (EnumDescriptor × Ident)}

theorem placed_pathOf (ctx : FileContext) (typeName : String) (kind : TypeKind)
    (module : List Ident) (ident : Ident) :
    Placed (Under module [ident.word]) [(typeName, ⟨kind, ctx.pathOf typeName module ident⟩)] := by
  refine .single fun path hpath => ⟨ident.word, List.mem_singleton_self _, ?_⟩
  rw [FileContext.words?_pathOf hpath]

theorem wordsOf_cons_message (m : MessageDescriptor) (i : MessageIdents)
    (messages : List (MessageDescriptor × MessageIdents)) (enums : List (EnumDescriptor × Ident)) :
    (wordsOf ((m, i) :: messages) enums).Perm (i.words ++ wordsOf messages enums) := by
  unfold wordsOf
  rw [List.flatMap_cons]
  exact List.perm_append_comm_assoc ..

/-- The types of a module are placed under the words that it claimed. -/
theorem Entered.placed (h : Entered ctx scope module messages enums t t')
    (nodup : (wordsOf messages enums).Nodup) :
    ∃ types, t'.types = types ++ t.types ∧ Placed (Under module (wordsOf messages enums)) types := by
  induction h with
  | done => exact ⟨[], rfl, .nil⟩
  | mapEntry name entry _ ih =>
    obtain ⟨types, htypes, hplaced⟩ := ih nodup
    refine ⟨types ++ [(name, ⟨.mapEntry, .suppressed⟩)], by rw [htypes, List.append_assoc]; rfl, ?_⟩
    have hentry : Placed (fun _ => False) [(name, ⟨.mapEntry, .suppressed⟩)] :=
      .single fun path hpath => by cases hpath
    exact (hplaced.append hentry fun _ _ => id).mono fun _ h => h.resolve_right id
  | @enum scope module messages enums _ _ name ident _ _ _ _ _ ih =>
    rw [wordsOf, List.map_cons, List.cons_append, ← wordsOf, List.nodup_cons] at nodup
    obtain ⟨types, htypes, hplaced⟩ := ih nodup.2
    have hown := placed_pathOf ctx (scope ++ name) .enumeration module ident
    refine ⟨_, by rw [htypes, List.append_cons], (hplaced.append hown fun path => ?_).mono ?_⟩
    · exact not_under_of_disjoint (List.disjoint_singleton.2 nodup.1)
    · rintro path (h | h)
      · exact h.subset (List.subset_cons_self ..)
      · exact h.subset (List.cons_subset.2 ⟨List.mem_cons_self, List.nil_subset _⟩)
  | @message scope module messages enums nested inner _ t _ _ name i m _ _ _ _ hclaimed _ _ _ ihBody
      ihRest =>
    have hperm := wordsOf_cons_message m i messages enums
    obtain ⟨hwords, hrest, hdisjoint⟩ := List.nodup_append'.1 (hperm.nodup_iff.1 nodup)
    obtain ⟨types, htypes, hplaced⟩ := ihBody hclaimed.nodup
    obtain ⟨types', htypes', hplaced'⟩ := ihRest hrest
    -- The message and its module have two words, and the others of the module have neither.
    have hown := placed_pathOf ctx (scope ++ name) .message module i.ident
    have hmessage : Placed (Under module i.words) (types ++
        [(scope ++ name, ⟨.message, ctx.pathOf (scope ++ name) module i.ident⟩)]) := by
      refine ((hplaced.mono fun _ => Under.outside).append hown fun path => ?_).mono ?_
      · refine not_under_of_disjoint (List.disjoint_singleton.2 fun hmem => ?_)
        exact (List.nodup_cons.1 hwords).1 (List.mem_cons_of_mem _ hmem)
      · rintro path (h | h) <;> exact h.subset (by simp [MessageIdents.words])
    refine ⟨_, by rw [htypes', htypes, ← List.append_assoc, List.append_cons, ← List.append_assoc],
      (hplaced'.append hmessage fun path => ?_).mono ?_⟩
    · exact not_under_of_disjoint hdisjoint.symm
    · rintro path (h | h)
      · exact h.subset fun w hw => hperm.mem_iff.2 (List.mem_append_right _ hw)
      · exact h.subset fun w hw => hperm.mem_iff.2 (List.mem_append_left _ hw)

end NameTable

end Protobuf
