import Protobuf.Proofs.Names.MapEntries
import Protobuf.Proofs.Names.Sites

/-! # Entries of declared types

The table has an entry for each type that a file declares.  If all names of a schema are
distinct, this is what was entered at the type's site in that file.

* `FileDescriptor.typeNames`: the types that a file declares.
* `NameTable.file_unique`: a type is declared by one file.
* `NameTable.ofFiles_typeName`, `NameTable.ofFiles_entry`: what the table has for a type.
-/

namespace Protobuf

def FileDescriptor.typeNames (f : FileDescriptor) : List String :=
  f.declaredMessages.map (·.1) ++ f.declaredEnums.map (·.1)

namespace DescriptorSet

theorem typeNames_perm (s : DescriptorSet) :
    (s.declaredMessages.map (·.1) ++ s.declaredEnums.map (·.1)).Perm
      (s.files.flatMap (·.typeNames)) := by
  rw [declaredMessages, declaredEnums, List.map_flatMap, List.map_flatMap]
  exact List.flatMap_append_perm _ _ _

theorem mem_declared_of_mem_typeNames {s : DescriptorSet} {f : FileDescriptor} (hf : f ∈ s.files)
    {typeName : String} (h : typeName ∈ f.typeNames) :
    typeName ∈ s.declaredMessages.map (·.1) ++ s.declaredEnums.map (·.1) :=
  s.typeNames_perm.mem_iff.2 (List.mem_flatMap.2 ⟨f, hf, h⟩)

theorem enumsInside_mono {ms ms' : List (String × MessageDescriptor)} (h : ms ⊆ ms') :
    enumsInside ms ⊆ enumsInside ms' := by
  intro d hd
  obtain ⟨e, he, hd⟩ := List.mem_flatMap.1 hd
  exact List.mem_flatMap.2 ⟨e, h he, hd⟩

theorem declaredEnums_subset (s : DescriptorSet) : s.declaredEnums ⊆ s.allEnums := by
  intro d hd
  obtain ⟨f, hf, hd⟩ := List.mem_flatMap.1 hd
  have hmessages : f.declaredMessages ⊆ f.allMessages := (nestedMessages_sublist _ _).subset
  refine List.mem_flatMap.2 ⟨f, hf, ?_⟩
  rcases List.mem_append.1 hd with hd | hd
  · exact List.mem_append_left _ hd
  · exact List.mem_append_right _ (enumsInside_mono hmessages hd)

end DescriptorSet

namespace NameTable

/-! ## Entries -/

def TypesNamed (t : NameTable) : Prop :=
  t.messages.map (·.1) ++ t.enums.map (·.1) ⊆ t.types.map (·.1)

variable {ctx : FileContext} {scope : String} {module : List Ident} {t t' : NameTable}

theorem Entered.types_subset {messages : List (MessageDescriptor × MessageIdents)}
    {enums : List (EnumDescriptor × Ident)} (h : Entered ctx scope module messages enums t t') :
    t.types ⊆ t'.types := by
  induction h with
  | done => exact List.Subset.refl _
  | mapEntry _ _ _ ih => exact List.subset_of_cons_subset ih
  | enum _ _ _ ih => exact List.subset_of_cons_subset ih
  | message _ _ _ _ _ _ _ ihBody ihRest =>
    exact List.Subset.trans (List.subset_of_cons_subset ihBody) ihRest

theorem Entered.typesNamed {messages : List (MessageDescriptor × MessageIdents)}
    {enums : List (EnumDescriptor × Ident)} (h : Entered ctx scope module messages enums t t')
    (named : t.TypesNamed) : t'.TypesNamed := by
  unfold TypesNamed at *
  induction h with
  | done => exact named
  | mapEntry _ _ _ ih => exact ih (List.subset_cons_of_subset _ named)
  | enum _ _ _ ih =>
    refine ih ?_
    simp only [List.append_subset, List.map_cons, List.cons_subset] at named ⊢
    exact ⟨List.subset_cons_of_subset _ named.1, List.mem_cons_self,
      List.subset_cons_of_subset _ named.2⟩
  | message _ _ _ _ body _ _ ihBody ihRest =>
    refine ihRest ?_
    have hown := List.map_subset (·.1) body.types_subset List.mem_cons_self
    exact List.cons_subset.2 ⟨hown, ihBody (List.subset_cons_of_subset _ named)⟩

theorem FilesEntered.typesNamed {files : List FileDescriptor} {scopes : List (Ident × Scope)}
    (h : FilesEntered files scopes t t') (named : t.TypesNamed) : t'.TypesNamed := by
  induction h with
  | done => exact named
  | file _ _ _ entered _ ih => exact ih (entered.typesNamed named)

variable {settings : Settings} {s : DescriptorSet} {f f' : FileDescriptor} {site : Site}
  {typeName : String}

/-- What is declared is entered. -/
theorem mem_types_of_mem_declared (h : FilesEntered s.files [] {} t)
    (hdeclared : typeName ∈ s.declaredMessages.map (·.1) ++ s.declaredEnums.map (·.1)) :
    typeName ∈ t.types.map (·.1) := by
  apply h.typesNamed (by simp [TypesNamed])
  have hmessages := h.count_messages typeName
  have henums := h.count_enums typeName
  rw [← List.count_pos_iff, List.count_append, DescriptorSet.declaredMessages,
    DescriptorSet.declaredEnums] at hdeclared
  rw [← List.count_pos_iff, List.count_append]
  omega

theorem mem_typeNames_of_mem_fileSites (h : site ∈ t.fileSites f) : site.typeName ∈ f.typeNames := by
  have hcount := count_fileSites t f site.typeName
  have hpos := List.count_pos_iff.2 (List.mem_map_of_mem (f := (·.typeName)) h)
  rw [FileDescriptor.typeNames, ← List.count_pos_iff, List.count_append]
  omega

/-- A type is declared by one file. -/
theorem file_unique (distinct : s.HasDistinctTypes) (hf : f ∈ s.files) (hf' : f' ∈ s.files)
    (h : typeName ∈ f.typeNames) (h' : typeName ∈ f'.typeNames) : f = f' := by
  by_contra hne
  have hdisjoint := (List.nodup_flatMap.1 (s.typeNames_perm.nodup distinct)).2
  have symm : Std.Symm (Function.onFun List.Disjoint FileDescriptor.typeNames) :=
    ⟨fun _ _ => List.Disjoint.symm⟩
  exact hdisjoint.forall hf hf' hne h h'

/-- A map entry has the name of no other type. -/
theorem not_ofMapEntry {e : String × TypeInfo} (h : ofFiles settings s = .ok t)
    (distinct : s.HasDistinctDeclarations)
    (hdeclared : e.1 ∈ s.declaredMessages.map (·.1) ++ s.declaredEnums.map (·.1)) : ¬t.OfMapEntry e := by
  rintro ⟨-, hkey⟩
  obtain ⟨⟨typeName, entry⟩, hentry, hname⟩ := List.mem_map.1 hkey
  rcases (ofFiles_adds h).sound _ hentry with hnone | ⟨m, hm, -⟩
  · cases hnone
  · rw [show typeName = e.1 from hname] at hm
    rcases List.mem_append.1 hdeclared with hmessage | henum
    · exact distinct.not_mem_messages hm hmessage
    · have hall := List.mem_map_of_mem (f := (·.1)) (DescriptorSet.mem_declaredMapEntries hm).1
      exact (List.nodup_append'.1 distinct).2.2 hall (List.map_subset _ s.declaredEnums_subset henum)

/-- What the table has for a type is what was entered at its site. -/
theorem ofFiles_typeName (h : ofFiles settings s = .ok t) (distinct : s.HasDistinctDeclarations)
    (hf : f ∈ s.files) (htype : typeName ∈ f.typeNames) :
    ∃ site ∈ t.fileSites f, site.typeName = typeName ∧
      entryOf? typeName t.types =
        some ⟨site.kind, (contextOf settings f).pathOf typeName site.module site.ident⟩ := by
  have hdeclared := DescriptorSet.mem_declared_of_mem_typeNames hf htype
  have hnot := fun e => not_ofMapEntry (e := e) h distinct
  obtain ⟨t, hfiles, rfl⟩ := ofFiles_ok h
  have entered := FilesEntered.of_addFiles hfiles
  have keys := hasKeys_of_filesEntered entered distinct.types
  have hsome := isSome_entryOf?_iff.2 (mem_types_of_mem_declared entered hdeclared)
  obtain ⟨info, hinfo⟩ := Option.isSome_iff_exists.1 hsome
  -- The boxed fields, which are noted last, make no difference to the names.
  rcases addFiles_sites (T := { t with boxed := s.boxedFields }) hfiles ⟨keys.messages, keys.enums⟩
    ⟨List.Subset.refl _, List.Subset.refl _⟩ _ (mem_of_entryOf? hinfo) with
    he | he | ⟨f', hf', site, hsite, he⟩
  · cases he
  · exact absurd he (hnot _ hdeclared)
  · obtain ⟨rfl, rfl⟩ := Prod.mk.inj he
    obtain rfl := file_unique distinct.types hf hf' htype (mem_typeNames_of_mem_fileSites hsite)
    exact ⟨site, hsite, rfl, hinfo⟩

/-- What the table has for the type of a site. -/
theorem ofFiles_entry (h : ofFiles settings s = .ok t) (distinct : s.HasDistinctDeclarations)
    (hf : f ∈ s.files) (hsite : site ∈ t.fileSites f) :
    entryOf? site.typeName t.types =
      some ⟨site.kind, (contextOf settings f).pathOf site.typeName site.module site.ident⟩ := by
  obtain ⟨site', hsite', hname, hentry⟩ :=
    ofFiles_typeName h distinct hf (mem_typeNames_of_mem_fileSites hsite)
  have hmem : ∀ {site}, site ∈ t.fileSites f → site ∈ s.files.flatMap t.fileSites :=
    fun hsite => List.mem_flatMap.2 ⟨f, hf, hsite⟩
  obtain rfl :=
    List.inj_on_of_nodup_map (nodup_fileSites t distinct.types) (hmem hsite') (hmem hsite) hname
  exact hentry

end NameTable

end Protobuf
