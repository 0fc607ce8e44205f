import Protobuf.Proofs.Names.Numbers

/-! # Sites of types

Where the struct of a message and the enum of an enum are written follows from the names that
the table has for them and for the messages around them.  A type that the table says is
generated has such a site, in the place that the table says.

* `Site`, `NameTable.fileSites`: the sites of what a file declares.
* `NameTable.nodup_fileSites`: no two sites are for types of one name.
* `NameTable.Entered.sites`, `NameTable.addFiles_sites`: what is entered is found at its site.
* `NameTable.ofFiles_site`: the site of a generated type.
-/

namespace Protobuf

/-- Where the struct or the enum of a type is written: the module, the identifier there and, for
    a message, that of its partial struct. -/
structure Site where
  typeName : String
  kind : TypeKind
  module : List Ident
  ident : Ident
  partialIdent : Option Ident := none
deriving DecidableEq, Repr

theorem FileContext.pathOf_eq_generated {ctx : FileContext} {typeName : String}
    {module module' : List Ident} {ident ident' : Ident}
    (h : ctx.pathOf typeName module ident = .generated module' ident') :
    ctx.suppressed = false ∧ module = module' ∧ ident = ident' := by
  unfold pathOf at h
  split at h
  · cases h
  split at h
  · cases h
  split at h
  · cases h
  · rename_i hsuppressed
    cases h
    exact ⟨by simpa using hsuppressed, rfl, rfl⟩

theorem enumsIn_append (scope : String) (enums enums' : List EnumDescriptor) :
    enumsIn scope (enums ++ enums') = enumsIn scope enums ++ enumsIn scope enums' :=
  List.filterMap_append

namespace NameTable

/-! ## The sites of a file -/

def enumSites (t : NameTable) (scope : String) (module : List Ident) (enums : List EnumDescriptor) :
    List Site :=
  (enumsIn scope enums).filterMap fun d =>
    (entryOf? d.1 t.enums).map fun names =>
      { typeName := d.1, kind := .enumeration, module, ident := names.ident }

mutual

/-- The sites of a message and of what is declared inside it. -/
def messageSites (t : NameTable) (scope : String) (module : List Ident) :
    MessageDescriptor → List Site
  | ⟨none, _, _, _, _, _⟩ => []
  | ⟨some name, _, nestedTypes, enumTypes, _, _⟩ =>
    match entryOf? (scope ++ name) t.messages with
    | none => []
    | some names =>
      { typeName := scope ++ name
        kind := .message
        module
        ident := names.ident
        partialIdent := some names.partialIdent } ::
        (t.enumSites (scope ++ name ++ ".") (module ++ [names.module]) enumTypes ++
          nestedSites t (scope ++ name ++ ".") (module ++ [names.module]) nestedTypes)

def nestedSites (t : NameTable) (scope : String) (module : List Ident) :
    List MessageDescriptor → List Site
  | [] => []
  | m :: rest =>
    if m.isMapEntry then nestedSites t scope module rest
    else messageSites t scope module m ++ nestedSites t scope module rest

end

def fileSites (t : NameTable) (f : FileDescriptor) : List Site :=
  t.enumSites f.scope [f.moduleIdent] f.enumTypes ++
    t.nestedSites f.scope [f.moduleIdent] f.messageTypes

section

variable {t : NameTable} {scope name : String} {module : List Ident}

theorem enumSites_cons {e : EnumDescriptor} {names : EnumNames} (hname : e.name = some name)
    (h : entryOf? (scope ++ name) t.enums = some names) (enums : List EnumDescriptor) :
    t.enumSites scope module (e :: enums) =
      { typeName := scope ++ name, kind := .enumeration, module, ident := names.ident } ::
        t.enumSites scope module enums := by
  rw [enumSites, enumsIn_cons hname, List.filterMap_cons_some (by rw [h]; rfl)]
  rfl

theorem messageSites_eq {m : MessageDescriptor} {names : MessageNames} (hname : m.name = some name)
    (h : entryOf? (scope ++ name) t.messages = some names) :
    t.messageSites scope module m =
      { typeName := scope ++ name
        kind := .message
        module
        ident := names.ident
        partialIdent := some names.partialIdent } ::
        (t.enumSites (scope ++ name ++ ".") (module ++ [names.module]) m.enumTypes ++
          t.nestedSites (scope ++ name ++ ".") (module ++ [names.module]) m.nestedTypes) := by
  obtain ⟨_, _, _, _, _, _⟩ := m
  cases hname
  rw [messageSites, h]

theorem nestedSites_eq (t : NameTable) (scope : String) (module : List Ident)
    (ms : List MessageDescriptor) :
    t.nestedSites scope module ms =
      (ms.filter (!·.isMapEntry)).flatMap fun m => t.messageSites scope module m := by
  induction ms with
  | nil => rw [nestedSites, List.filter_nil, List.flatMap_nil]
  | cons m rest ih => cases hentry : m.isMapEntry <;> simp [nestedSites, hentry, ih]

theorem enumSites_singleton (t : NameTable) {e : EnumDescriptor} (hname : e.name = some name) :
    t.enumSites scope module [e] = ((entryOf? (scope ++ name) t.enums).map fun names =>
      { typeName := scope ++ name, kind := .enumeration, module, ident := names.ident }).toList := by
  rw [enumSites, enumsIn_cons hname]
  exact List.filterMap_cons

theorem enumSites_append (t : NameTable) (scope : String) (module : List Ident)
    (enums enums' : List EnumDescriptor) :
    t.enumSites scope module (enums ++ enums') =
      t.enumSites scope module enums ++ t.enumSites scope module enums' := by
  rw [enumSites, enumsIn_append, List.filterMap_append]
  rfl

theorem nestedSites_append (t : NameTable) (scope : String) (module : List Ident)
    (ms ms' : List MessageDescriptor) :
    t.nestedSites scope module (ms ++ ms') =
      t.nestedSites scope module ms ++ t.nestedSites scope module ms' := by
  simp only [nestedSites_eq, List.filter_append, List.flatMap_append]

end

/-! ## Partial structs -/

/-- The partial struct of a message is the one that the table names for it. -/
def NamesPartial (t : NameTable) (site : Site) : Prop :=
  site.kind = .message → ∃ names, entryOf? site.typeName t.messages = some names ∧
    site.partialIdent = some names.partialIdent

section

variable {t : NameTable}

theorem namesPartial_of_mem_enumSites {site : Site} {scope : String} {module : List Ident}
    {enums : List EnumDescriptor} (h : site ∈ t.enumSites scope module enums) : t.NamesPartial site := by
  obtain ⟨d, -, hsite⟩ := List.mem_filterMap.1 h
  obtain ⟨names, -, rfl⟩ := Option.map_eq_some_iff.1 hsite
  intro hkind
  cases hkind

mutual

theorem namesPartial_of_mem_messageSites {site : Site} {scope : String} {module : List Ident} :
    {m : MessageDescriptor} → site ∈ t.messageSites scope module m → t.NamesPartial site
  | ⟨none, _, _, _, _, _⟩, h => by
    rw [messageSites] at h
    cases h
  | ⟨some name, _, nestedTypes, enumTypes, _, _⟩, h => by
    rw [messageSites] at h
    split at h
    · cases h
    · rename_i names hnames
      rcases List.mem_cons.1 h with rfl | h
      · exact fun _ => ⟨names, hnames, rfl⟩
      · rcases List.mem_append.1 h with h | h
        · exact namesPartial_of_mem_enumSites h
        · exact namesPartial_of_mem_nestedSites h

theorem namesPartial_of_mem_nestedSites {site : Site} {scope : String} {module : List Ident} :
    {ms : List MessageDescriptor} → site ∈ t.nestedSites scope module ms → t.NamesPartial site
  | [], h => by
    rw [nestedSites] at h
    cases h
  | m :: rest, h => by
    rw [nestedSites] at h
    split at h
    · exact namesPartial_of_mem_nestedSites h
    · rcases List.mem_append.1 h with h | h
      · exact namesPartial_of_mem_messageSites h
      · exact namesPartial_of_mem_nestedSites h

end

theorem namesPartial_of_mem_fileSites {site : Site} {f : FileDescriptor} (h : site ∈ t.fileSites f) :
    t.NamesPartial site := by
  rcases List.mem_append.1 h with h | h
  · exact namesPartial_of_mem_enumSites h
  · exact namesPartial_of_mem_nestedSites h

end

/-! ## One site each -/

theorem enumSites_sublist (t : NameTable) (scope : String) (module : List Ident)
    (enums : List EnumDescriptor) :
    ((t.enumSites scope module enums).map (·.typeName)).Sublist ((enumsIn scope enums).map (·.1)) := by
  unfold enumSites
  induction enumsIn scope enums with
  | nil => exact .slnil
  | cons d rest ih =>
    rw [List.filterMap_cons, List.map_cons]
    cases entryOf? d.1 t.enums with
    | none => exact ih.cons _
    | some names => exact ih.cons_cons _

mutual

theorem count_messageSites (t : NameTable) (scope : String) (module : List Ident)
    (typeName : String) :
    (m : MessageDescriptor) →
      ((t.messageSites scope module m).map (·.typeName)).count typeName ≤
        ((m.messages scope).map (·.1)).count typeName +
          ((enumsInside (m.messages scope)).map (·.1)).count typeName
  | ⟨none, _, _, _, _, _⟩ => by
    rw [messageSites]
    exact Nat.zero_le _
  | ⟨some name, _, nestedTypes, enumTypes, _, _⟩ => by
    rw [messageSites, MessageDescriptor.messages]
    split
    · exact Nat.zero_le _
    · rename_i names _
      have henums := (enumSites_sublist t (scope ++ name ++ ".") (module ++ [names.module])
        enumTypes).count_le typeName
      have hnested := count_nestedSites t (scope ++ name ++ ".") (module ++ [names.module]) typeName
        nestedTypes
      simp only [enumsInside, List.flatMap_cons, List.map_cons, List.map_append, List.count_cons,
        List.count_append] at hnested ⊢
      omega

theorem count_nestedSites (t : NameTable) (scope : String) (module : List Ident)
    (typeName : String) :
    (ms : List MessageDescriptor) →
      ((t.nestedSites scope module ms).map (·.typeName)).count typeName ≤
        ((nestedMessages scope ms).map (·.1)).count typeName +
          ((enumsInside (nestedMessages scope ms)).map (·.1)).count typeName
  | [] => by
    rw [nestedSites]
    exact Nat.zero_le _
  | m :: rest => by
    rw [nestedSites, nestedMessages]
    split
    · exact count_nestedSites t scope module typeName rest
    · have hm := count_messageSites t scope module typeName m
      have hrest := count_nestedSites t scope module typeName rest
      simp only [enumsInside, List.flatMap_append, List.map_append, List.count_append] at hm hrest ⊢
      omega

end

theorem count_fileSites (t : NameTable) (f : FileDescriptor) (typeName : String) :
    ((t.fileSites f).map (·.typeName)).count typeName ≤
      (f.declaredMessages.map (·.1)).count typeName + (f.declaredEnums.map (·.1)).count typeName := by
  have henums := (enumSites_sublist t f.scope [f.moduleIdent] f.enumTypes).count_le typeName
  have hmessages := count_nestedSites t f.scope [f.moduleIdent] typeName f.messageTypes
  simp only [fileSites, FileDescriptor.declaredEnums, FileDescriptor.declaredMessages, List.map_append,
    List.count_append] at hmessages ⊢
  omega

/-- No two sites are for types of one name. -/
theorem nodup_fileSites {s : DescriptorSet} (t : NameTable) (distinct : s.HasDistinctTypes) :
    ((s.files.flatMap t.fileSites).map (·.typeName)).Nodup := by
  refine List.nodup_iff_count_le_one.2 fun typeName => ?_
  refine le_trans ?_ (List.nodup_iff_count_le_one.1 distinct typeName)
  rw [DescriptorSet.declaredMessages, DescriptorSet.declaredEnums]
  clear distinct
  induction s.files with
  | nil => exact Nat.zero_le _
  | cons f files ih =>
    have hfile := count_fileSites t f typeName
    simp only [List.flatMap_cons, List.map_append, List.count_append] at ih ⊢
    omega

/-! ## Entered types -/

def Site.entry (ctx : FileContext) (site : Site) : String × TypeInfo :=
  (site.typeName, ⟨site.kind, ctx.pathOf site.typeName site.module site.ident⟩)

variable {ctx : FileContext} {scope : String} {module : List Ident} {t t' T : NameTable}
  {messages : List (MessageDescriptor × MessageIdents)} {enums : List (EnumDescriptor × Ident)}

/-- The sites of a message are those of the identifiers that it claimed, and of what claimed some
    inside it. -/
theorem messageSites_of_entered {name : String} {m : MessageDescriptor} {names : MessageNames}
    {i : MessageIdents} (keys : T.HasKeys) (hname : m.name = some name)
    (hmem : (scope ++ name, names) ∈ T.messages) (hidents : names.idents = i)
    (hmessages : messages.map (·.1) = m.nestedTypes.filter (!·.isMapEntry))
    (henums : enums.map (·.1) = m.enumTypes) :
    T.messageSites scope module m =
      { typeName := scope ++ name
        kind := .message
        module
        ident := i.ident
        partialIdent := some names.partialIdent } ::
        (T.enumSites (scope ++ name ++ ".") (module ++ [i.module]) (enums.map (·.1)) ++
          messages.flatMap fun p =>
            T.messageSites (scope ++ name ++ ".") (module ++ [i.module]) p.1) := by
  subst hidents
  rw [messageSites_eq hname (entryOf?_of_mem keys.messages hmem), henums, nestedSites_eq,
    ← hmessages, List.flatMap_map]
  rfl

theorem Entered.mapEntries_subset (h : Entered ctx scope module messages enums t t') :
    t.mapEntries ⊆ t'.mapEntries := by
  induction h with
  | done => exact List.Subset.refl _
  | mapEntry _ _ _ ih => exact List.subset_of_cons_subset ih
  | enum _ _ _ ih => exact ih
  | message _ _ _ _ _ _ _ ihBody ihRest => exact List.Subset.trans ihBody ihRest

def OfMapEntry (t : NameTable) (e : String × TypeInfo) : Prop :=
  e.2 = ⟨.mapEntry, .suppressed⟩ ∧ e.1 ∈ t.mapEntries.map (·.1)

theorem OfMapEntry.mono {e : String × TypeInfo} (h : t.OfMapEntry e)
    (subset : t.mapEntries ⊆ t'.mapEntries) : t'.OfMapEntry e :=
  ⟨h.1, List.map_subset _ subset h.2⟩

/-- The types that are entered with a module, map entries apart, are those of its sites, under
    the names of any table that the entries are kept in. -/
theorem Entered.sites (h : Entered ctx scope module messages enums t t') (keys : T.HasKeys)
    (grows : t'.Grows T) :
    ∀ e ∈ t'.types, e ∈ t.types ∨ t'.OfMapEntry e ∨
      ∃ site ∈ T.enumSites scope module (enums.map (·.1)) ++
        messages.flatMap fun p => T.messageSites scope module p.1, e = Site.entry ctx site := by
  induction h with
  | done => exact fun e he => .inl he
  | mapEntry name entry rest ih =>
    intro e he
    rcases ih grows e he with he | he
    · rcases List.mem_cons.1 he with rfl | he
      · have hkept := List.map_subset (·.1) rest.mapEntries_subset List.mem_cons_self
        exact .inr (.inl ⟨rfl, hkept⟩)
      · exact .inl he
    · exact .inr he
  | enum hname hnames rest ih =>
    intro e he
    have hmem := grows.enums (rest.grows.enums List.mem_cons_self)
    rw [List.map_cons, enumSites_cons hname (entryOf?_of_mem keys.enums hmem), (enumNames_ok hnames).1]
    rcases ih grows e he with he | he | ⟨site, hsite, he⟩
    · rcases List.mem_cons.1 he with rfl | he
      · exact .inr (.inr ⟨_, List.mem_cons_self, rfl⟩)
      · exact .inl he
    · exact .inr (.inl he)
    · exact .inr (.inr ⟨site, List.mem_cons_of_mem _ hsite, he⟩)
  | @message scope module messages enums nested inner _ _ _ _ name i m names hname hnested hinner _ _
      hnames rest ihBody ihRest =>
    intro e he
    have hmem := grows.messages (rest.grows.messages List.mem_cons_self)
    have hkept : Grows _ T := Grows.trans
      ⟨List.subset_of_cons_subset rest.grows.messages, rest.grows.enums⟩ grows
    rw [List.flatMap_cons, messageSites_of_entered keys hname hmem (messageNames_ok hnames).1 hnested
      hinner]
    -- An entry is of what stands behind the message, of what is inside it, or its own.
    rcases ihRest grows e he with he | he | ⟨site, hsite, he⟩
    · rcases ihBody hkept e he with he | he | ⟨site, hsite, he⟩
      · rcases List.mem_cons.1 he with rfl | he
        · exact .inr (.inr ⟨_, List.mem_append_right _ List.mem_cons_self, rfl⟩)
        · exact .inl he
      · exact .inr (.inl (he.mono rest.mapEntries_subset))
      · refine .inr (.inr ⟨site, List.mem_append_right _ (List.mem_cons_of_mem _ ?_), he⟩)
        exact List.mem_append_left _ hsite
    · exact .inr (.inl he)
    · refine .inr (.inr ⟨site, ?_, he⟩)
      rcases List.mem_append.1 hsite with hsite | hsite
      · exact List.mem_append_left _ hsite
      · exact List.mem_append_right _ (List.mem_cons_of_mem _ (List.mem_append_right _ hsite))

variable {settings : Settings} {files : List FileDescriptor} {scopes : List (Ident × Scope)}

theorem FilesEntered.mapEntries_subset (h : FilesEntered files scopes t t') :
    t.mapEntries ⊆ t'.mapEntries := by
  induction h with
  | done => exact List.Subset.refl _
  | file _ _ _ entered _ ih => exact List.Subset.trans entered.mapEntries_subset ih

theorem addFiles_sites (h : addFiles settings files scopes t = .ok t') (keys : T.HasKeys)
    (grows : t'.Grows T) :
    ∀ e ∈ t'.types, e ∈ t.types ∨ t'.OfMapEntry e ∨
      ∃ f ∈ files, ∃ site ∈ T.fileSites f, e = Site.entry (contextOf settings f) site := by
  induction files generalizing scopes t with
  | nil =>
    cases h
    exact fun e he => .inl he
  | cons f files ih =>
    obtain ⟨⟨t₁, scope⟩, hfile, hrest⟩ := bind_eq_ok.1 h
    obtain ⟨claimed, inside⟩ := addFile_ok hfile
    obtain ⟨hmessagesLength, henumsLength⟩ := inside.length_claimed
    intro e he
    rcases ih hrest e he with he | he | ⟨f', hf', hsite⟩
    · have hown := inside.entered.sites keys ((FilesEntered.of_addFiles hrest).grows.trans grows) e he
      rw [List.map_fst_zip henumsLength.ge, ← List.flatMap_map (f := Prod.fst),
        List.map_fst_zip hmessagesLength.ge, ← nestedSites_eq, ← fileSites] at hown
      have hkept := (FilesEntered.of_addFiles hrest).mapEntries_subset
      exact hown.imp_right (.imp (·.mono hkept) fun hsite => ⟨f, List.mem_cons_self, hsite⟩)
    · exact .inr (.inl he)
    · exact .inr (.inr ⟨f', List.mem_cons_of_mem _ hf', hsite⟩)

/-- A type that the table says is generated has a site there, in a file that code is generated
    for. -/
theorem ofFiles_site {s : DescriptorSet} (h : ofFiles settings s = .ok t)
    (distinct : s.HasDistinctTypes) {typeName : String} {kind : TypeKind} {ident : Ident}
    (hinfo : entryOf? typeName t.types = some ⟨kind, .generated module ident⟩) :
    ∃ f ∈ s.files, (f.isWellKnown && !settings.emitWellKnownTypes) = false ∧
      ∃ site ∈ t.fileSites f, site.typeName = typeName ∧ site.kind = kind ∧ site.module = module ∧
        site.ident = ident := by
  obtain ⟨t, hfiles, rfl⟩ := ofFiles_ok h
  have keys := hasKeys_of_filesEntered (FilesEntered.of_addFiles hfiles) distinct
  -- The boxed fields, which are noted last, make no difference to the names.
  rcases addFiles_sites (T := { t with boxed := s.boxedFields }) hfiles ⟨keys.messages, keys.enums⟩
    ⟨List.Subset.refl _, List.Subset.refl _⟩ _ (mem_of_entryOf? hinfo) with
    he | he | ⟨f, hf, site, hsite, he⟩
  · cases he
  · cases he.1
  · obtain ⟨hname, hkind⟩ := Prod.mk.inj he
    obtain ⟨hkind, hpath⟩ := TypeInfo.mk.inj hkind
    obtain ⟨hsuppressed, hmodule, hident⟩ := FileContext.pathOf_eq_generated hpath.symm
    exact ⟨f, hf, hsuppressed, site, hsite, hname.symm, hkind.symm, hmodule, hident⟩

end NameTable

end Protobuf
