import Protobuf.Proofs.Generate.Layout
import Protobuf.Proofs.Generate.Writing

/-! # References of generated code

A message or an enum that a field of a generated message refers to is found elsewhere, or it is
declared by the code that is generated with it: once, and where the reference leads.

* `DescriptorSet.reference?`: what a field refers to, by itself or through a map entry.
* `NameTable.Resolves`: a type is found.
* `FieldModel.Describes.lookup_ok`: what the model of a field refers to is known.
* `Site.declaredOnce`: a generated type is declared once.
* `DescriptorSet.generate_resolves`: references lead somewhere.
-/

namespace Protobuf

def FieldDescriptor.namedType? (f : FieldDescriptor) : Option (String × TypeKind) :=
  match f.kind? with
  | some .message => f.typeName.map fun typeName => (typeName, .message)
  | some .enumeration => f.typeName.map fun typeName => (typeName, .enumeration)
  | _ => none

namespace DescriptorSet

/-- The map entry that a repeated field stands for a map of. -/
def mapOf? (s : DescriptorSet) (f : FieldDescriptor) : Option MessageDescriptor :=
  if f.kind? = some .message ∧ f.isRepeated then
    f.typeName.bind (entryOf? · s.declaredMapEntries)
  else none

/-- The message or enum that the values of a field are of, which for a map is what the value
    field of its entry names. -/
def reference? (s : DescriptorSet) (f : FieldDescriptor) : Option (String × TypeKind) :=
  match s.mapOf? f with
  | some entry => (entry.fields.find? (·.number = some 2)).bind (·.namedType?)
  | none => f.namedType?

end DescriptorSet

/-- In all modules the type of a site is declared once, there, and nothing else is declared under
    the identifiers that it has there. -/
structure Site.DeclaredOnce (modules : List (String × List Item)) (site : Site) : Prop where
  only : (itemsSites [] (moduleItems modules)).filter (·.typeName = site.typeName) = [site]
  alone : ∀ path ∈ site.paths, (itemsPaths [] (moduleItems modules)).count path = 1

/-- A type of some kind is known under a name, and it is found elsewhere or declared once among
    some modules, where it is said to be, a message with the partial struct of its names. -/
def NameTable.Resolves (t : NameTable) (modules : List (String × List Item)) (typeName : String)
    (kind : TypeKind) : Prop :=
  ∃ path, (∀ field, t.lookup field typeName kind = .ok path) ∧
    ((∃ code, path = .external code) ∨
      ∃ site : Site, path = .generated site.module site.ident ∧ site.typeName = typeName ∧
        site.kind = kind ∧ t.NamesPartial site ∧ site.DeclaredOnce modules)

/-! ## References of models -/

namespace FieldDescriptor

variable {f : FieldDescriptor}

theorem kind?_of_supportedKind {kind : FieldKind} (h : f.supportedKind = .ok kind) :
    f.kind? = some kind := by
  unfold supportedKind at h
  split at h
  · cases h
  · rename_i hkind
    cases h
    exact hkind
  · cases h

theorem typeName_of_referredType {typeName : String} (h : f.referredType = .ok typeName) :
    f.typeName = some typeName := by
  unfold referredType at h
  split at h
  · rename_i htype
    cases h
    exact htype
  · cases h

end FieldDescriptor

namespace NameTable

variable {t : NameTable} {source : List Ident} {name typeName : String} {kind : TypeKind}

theorem lookup_eq_ok {field : String} {path : TypePath} :
    t.lookup field typeName kind = .ok path ↔
      entryOf? typeName t.types = some ⟨kind, path⟩ ∧ path ≠ .suppressed := by
  constructor
  · intro h
    unfold lookup at h
    split at h
    · rename_i hentry
      split at h
      · cases h
      · rename_i hkind
        split at h
        · cases h
        · rename_i hpath
          cases h
          rw [hentry, not_ne_iff.1 hkind]
          exact ⟨rfl, hpath⟩
    · cases h
  · rintro ⟨hentry, hpath⟩
    simp [lookup, hentry, hpath]

theorem lookup_of_resolve {field : String} {ref : TypeRef}
    (h : t.resolve source field typeName kind = .ok ref) :
    ∃ path, t.lookup field typeName kind = .ok path := by
  obtain ⟨path, hlookup, -⟩ := bind_eq_ok.1 h
  exact ⟨path, hlookup⟩

/-- A value that refers to a type has a form only if the type is known. -/
theorem lookup_of_valueForm {f : FieldDescriptor} {boxed : Bool} {value : ValueForm}
    (h : t.valueForm source name f boxed = .ok value) (href : f.namedType? = some (typeName, kind)) :
    ∃ path, t.lookup name typeName kind = .ok path := by
  obtain ⟨fieldKind, hkind, h⟩ := bind_eq_ok.1 h
  simp only [FieldDescriptor.namedType?, FieldDescriptor.kind?_of_supportedKind hkind] at href
  -- Only messages and enums refer to a type.
  cases fieldKind
  case message | enumeration =>
    obtain ⟨_, hname, href⟩ := Option.map_eq_some_iff.1 href
    cases href
    obtain ⟨_, htype, h⟩ := bind_eq_ok.1 h
    obtain ⟨ref, hresolve, -⟩ := bind_eq_ok.1 h
    obtain rfl := Option.some.inj (hname.symm.trans (FieldDescriptor.typeName_of_referredType htype))
    exact lookup_of_resolve hresolve
  case scalar | group => cases href

variable {settings : Settings} {s : DescriptorSet}

/-- What the values of a field refer to is known, if their form is. -/
theorem lookup_of_fieldValue {message : String} {f : FieldDescriptor} {value : Option Scalar × ValueForm}
    (ht : ofFiles settings s = .ok t) (distinct : s.HasDistinctDeclarations)
    (h : t.fieldValue message source name f = .ok value)
    (href : s.reference? f = some (typeName, kind)) :
    ∃ path, t.lookup name typeName kind = .ok path := by
  obtain ⟨fieldKind, hkind, h⟩ := bind_eq_ok.1 h
  simp only [DescriptorSet.reference?, DescriptorSet.mapOf?,
    FieldDescriptor.kind?_of_supportedKind hkind, Option.some.injEq] at href
  simp only [Bool.and_eq_true, decide_eq_true_eq] at h
  split at h
  · rename_i hrepeated
    rw [if_pos hrepeated] at href
    obtain ⟨mapName, htype, h⟩ := bind_eq_ok.1 h
    rw [FieldDescriptor.typeName_of_referredType htype, Option.bind_some] at href
    split at h
    · -- A map: its values are of the value field of the entry that was declared.
      rename_i entry hentry
      obtain ⟨m, hm, hdescribes⟩ := ofFiles_mapEntry ht distinct hentry
      rw [hm] at href
      simp only [hdescribes.value, Option.bind_some] at href
      obtain ⟨keyKind, -, h⟩ := bind_eq_ok.1 h
      split at h
      · obtain ⟨form, hform, -⟩ := bind_eq_ok.1 h
        exact lookup_of_valueForm hform href
      · cases h
    · rename_i hentry
      rw [ofFiles_no_mapEntry ht hentry] at href
      obtain ⟨form, hform, -⟩ := bind_eq_ok.1 h
      exact lookup_of_valueForm hform href
  · rename_i hsingle
    rw [if_neg hsingle] at href
    obtain ⟨form, hform, -⟩ := bind_eq_ok.1 h
    exact lookup_of_valueForm hform href

end NameTable

/-- What a model of a field refers to is known. -/
theorem FieldModel.Describes.lookup_ok {settings : Settings} {s : DescriptorSet} {t : NameTable}
    {message typeName : String} {kind : TypeKind} {f : FieldDescriptor} {model : FieldModel}
    (h : model.Describes t message f) (ht : NameTable.ofFiles settings s = .ok t)
    (distinct : s.HasDistinctDeclarations) (href : s.reference? f = some (typeName, kind)) :
    ∃ path, ∀ field, t.lookup field typeName kind = .ok path := by
  obtain ⟨source, ident, plain, hplain, -⟩ := h
  obtain ⟨⟨name, number⟩, -, hplain⟩ := bind_eq_ok.1 hplain
  obtain ⟨value, hvalue, -⟩ := bind_eq_ok.1 hplain
  obtain ⟨path, hlookup⟩ := NameTable.lookup_of_fieldValue ht distinct hvalue href
  rw [NameTable.lookup_eq_ok] at hlookup
  exact ⟨path, fun field => NameTable.lookup_eq_ok.2 hlookup⟩

/-! ## Declarations of generated types -/

/-- Among elements with keys of their own, one is found by its key. -/
theorem filter_eq_singleton {α β : Type} [DecidableEq β] {g : α → β} {as : List α} {a : α}
    (nodup : (as.map g).Nodup) (ha : a ∈ as) : as.filter (g · = g a) = [a] := by
  obtain ⟨front, back, rfl⟩ := List.append_of_mem ha
  rw [List.map_append, List.map_cons, List.nodup_append', List.nodup_cons] at nodup
  obtain ⟨-, ⟨hback, -⟩, hfront⟩ := nodup
  have hnone : ∀ {bs : List α}, g a ∉ bs.map g → bs.filter (g · = g a) = [] := by
    intro bs hbs
    refine List.filter_eq_nil_iff.2 fun b hb heq => hbs ?_
    exact List.mem_map.2 ⟨b, hb, by simpa using heq⟩
  rw [List.filter_append, List.filter_cons_of_pos (by simp), hnone hback,
    hnone fun h => hfront h List.mem_cons_self, List.nil_append]

section

variable {settings : Settings} {s : DescriptorSet} {t : NameTable}
  {modules : List (String × List Item)}

/-- The type of a site is declared once if it is generated. -/
theorem Site.declaredOnce (ht : NameTable.ofFiles settings s = .ok t)
    (distinct : s.HasDistinctDeclarations)
    (h : generatedModules settings none t s.files = .ok modules) {site : Site}
    (hsite : site ∈ (s.generatedFiles settings none).flatMap t.fileSites)
    (hgenerated : t.isGenerated site.typeName) : site.DeclaredOnce modules := by
  have hsites := generatedModules_sites ht distinct h
  have hmem : site ∈ ((s.generatedFiles settings none).flatMap t.fileSites).filter
      (t.isGenerated ·.typeName) := List.mem_filter.2 ⟨hsite, hgenerated⟩
  have hnodup : (((s.generatedFiles settings none).flatMap t.fileSites).map (·.typeName)).Nodup :=
    (((s.generatedFiles_sublist settings none).flatMap _).map _).nodup
      (NameTable.nodup_fileSites t distinct.types)
  constructor
  · have hone := filter_eq_singleton ((List.filter_sublist.map _).nodup hnodup) hmem
    exact List.perm_singleton.1 (hone ▸ hsites.filter _)
  · intro path hpath
    have hpaths := mem_itemsPaths_of_mem_sites hpath (hsites.mem_iff.2 hmem)
    exact List.count_eq_one_of_mem (generatedModules_nodup_paths ht distinct h) hpaths

/-- A type that is looked up without failing is found elsewhere or declared once. -/
theorem NameTable.resolves_of_lookup (ht : NameTable.ofFiles settings s = .ok t)
    (distinct : s.HasDistinctDeclarations)
    (h : generatedModules settings none t s.files = .ok modules) {typeName : String}
    {kind : TypeKind} {path : TypePath} (hlookup : ∀ field, t.lookup field typeName kind = .ok path) :
    t.Resolves modules typeName kind := by
  obtain ⟨hinfo, hsuppressed⟩ := NameTable.lookup_eq_ok.1 (hlookup "")
  refine ⟨path, hlookup, ?_⟩
  cases path with
  | external code => exact .inl ⟨code, rfl⟩
  | suppressed => exact absurd rfl hsuppressed
  | generated module ident =>
    obtain ⟨f, hf, hemitted, site, hsite, rfl, hkind, rfl, rfl⟩ :=
      NameTable.ofFiles_site ht distinct.types hinfo
    refine .inr ⟨site, rfl, rfl, hkind, NameTable.namesPartial_of_mem_fileSites hsite, ?_⟩
    refine Site.declaredOnce ht distinct h (List.mem_flatMap.2 ⟨f, ?_, hsite⟩) ?_
    · exact List.mem_filter.2 ⟨hf, by simp [Settings.generates, hemitted]⟩
    · simp [NameTable.isGenerated, hinfo]

end

/-- If a schema whose declarations have distinct names is generated, then each message or enum
    that a field of a generated message refers to, one of its own, a member of a oneof that the
    message declares, or a map, is known with the kind that the field has.  It is found
    elsewhere, or the generated modules declare it once, in the module and under the identifier
    that the reference leads to, where nothing else has them; and so do they the partial struct
    of a message.  Each module is written out in its file. -/
theorem DescriptorSet.generate_resolves {settings : Settings} {s : DescriptorSet}
    {files : List GeneratedFile} (h : s.generate settings none = .ok files)
    (distinct : s.HasDistinctDeclarations) :
    ∃ t modules, NameTable.ofFiles settings s = .ok t ∧
      generatedModules settings none t s.files = .ok modules ∧ moduleFiles modules = .ok files ∧
      (∀ e ∈ modules, ∃ file ∈ files, file.name = e.1 ++ ".rs" ∧
        file.Shows (.sequence (itemsCode e.2))) ∧
      ∀ e ∈ s.emittedMessages settings none t, ∀ f ∈ e.2.fields, e.2.hasPlace f →
        ∀ typeName kind, s.reference? f = some (typeName, kind) →
          t.Resolves modules typeName kind := by
  obtain ⟨t, modules, ht, hmodules, hfiles⟩ := DescriptorSet.generate_ok h
  refine ⟨t, modules, ht, hmodules, hfiles, fun e he => moduleFiles_shows hfiles he, ?_⟩
  intro e he f hf hplace typeName kind href
  obtain ⟨model, -, hkeeps⟩ := generatedModules_keeps ht hmodules he (distinct.once e.1)
  obtain ⟨p, ⟨-, hholds⟩, -⟩ := hkeeps.existsUnique (List.mem_filter.2 ⟨hf, hplace⟩)
  obtain ⟨path, hlookup⟩ : ∃ path, ∀ field, t.lookup field typeName kind = .ok path := by
    cases hholds with
    | field _ hmodel => exact hmodel.lookup_ok ht distinct href
    | member _ _ _ hmodel => exact hmodel.lookup_ok ht distinct href
  exact NameTable.resolves_of_lookup ht distinct hmodules hlookup

def referringField (name : String) (number : Int32) (kind : FieldKind) (typeName : String) :
    FieldDescriptor :=
  { name := some name, number := some number, type := some kind.code, typeName := some typeName }

/-- A message with a field of its own, a oneof member and a map that refer to what is declared
    inside it, and a field that refers to a type of the runtime library. -/
def brimmedHat : MessageDescriptor :=
  { name := some "Hat"
    fields :=
      [ referringField "brim" 1 .message ".mill.Hat.Brim",
        { referringField "felt" 2 .enumeration ".mill.Hat.Felt" with oneofIndex := some 0 },
        { referringField "bands" 3 .message ".mill.Hat.BandsEntry" with
          label := some Label.repeated.code },
        referringField "made" 4 .message ".google.protobuf.Timestamp" ]
    nestedTypes :=
      [ { name := some "Brim" },
        { name := some "BandsEntry"
          fields := [NameTable.boolField "key" 1, referringField "value" 2 .message ".mill.Hat.Brim"]
          options := some { mapEntry := some true } } ]
    enumTypes := [{ name := some "Felt", values := [⟨some "SOFT", some 0⟩] }]
    oneofs := [{ name := some "kind" }] }

def hatMill : DescriptorSet :=
  { files :=
      [ { name := some "google/protobuf/timestamp.proto"
          package := some wellKnownPackage
          messageTypes := [{ name := some "Timestamp" }]
          dialect := some "proto3" },
        { name := some "mill.proto"
          package := some "mill"
          messageTypes := [brimmedHat]
          dialect := some "proto3" } ] }

theorem distinct_hatMill : hatMill.HasDistinctDeclarations := by
  have hmessages : hatMill.allMessages.map (·.1) =
      [".google.protobuf.Timestamp", ".mill.Hat", ".mill.Hat.Brim", ".mill.Hat.BandsEntry"] := by cbv
  have henums : hatMill.allEnums.map (·.1) = [".mill.Hat.Felt"] := by cbv
  rw [DescriptorSet.HasDistinctDeclarations, hmessages, henums]
  decide

theorem exists_generate_hatMill : ∃ files, hatMill.generate {} none = .ok files := by
  refine DescriptorSet.generate_of_isWritable ?_
  unfold hatMill brimmedHat
  simp only [DescriptorSet.isWritable, NameTable.ofFiles, NameTable.addFiles, NameTable.addFile,
    NameTable.addMessages_cons, NameTable.addMessages_nil]
  decide +kernel

/-- What the table of the schema says of the brim of the hat. -/
theorem table_hatMill {t : NameTable} (h : NameTable.ofFiles {} hatMill = .ok t) :
    t.lookup "" ".mill.Hat.Brim" .message =
        .ok (.generated [⟨"mill", false⟩, ⟨"hat", false⟩] ⟨"Brim", false⟩) ∧
      (entryOf? ".mill.Hat.Brim" t.messages).map (·.partialIdent) = some ⟨"BrimPartial", false⟩ := by
  have hall : ((NameTable.ofFiles {} hatMill).map fun t =>
      ((t.lookup "" ".mill.Hat.Brim" .message).toOption,
        (entryOf? ".mill.Hat.Brim" t.messages).map (·.partialIdent))).toOption =
      some (some (.generated [⟨"mill", false⟩, ⟨"hat", false⟩] ⟨"Brim", false⟩),
        some ⟨"BrimPartial", false⟩) := by
    unfold hatMill brimmedHat
    simp only [NameTable.ofFiles, NameTable.addFiles, NameTable.addFile,
      NameTable.addMessages_cons, NameTable.addMessages_nil]
    decide +kernel
  rw [h] at hall
  obtain ⟨hlookup, hpartial⟩ := Prod.mk.inj (Option.some.inj hall)
  exact ⟨eq_ok_of_toOption hlookup, hpartial⟩

theorem mem_emittedMessages_hatMill {t : NameTable} (h : NameTable.ofFiles {} hatMill = .ok t) :
    (".mill.Hat", brimmedHat) ∈ hatMill.emittedMessages {} none t := by
  have hfile : hatMill.files[1] ∈ hatMill.generatedFiles {} none :=
    List.mem_filter.2 ⟨List.mem_cons_of_mem _ List.mem_cons_self, by decide +kernel⟩
  exact DescriptorSet.mem_emittedMessages_of_declared h distinct_hatMill hfile List.mem_cons_self
    fun _ _ => rfl

/-- What the fields of a message refer to is found, and what the values of its map are of is
    declared in the module of the message. -/
theorem generate_resolves_hatMill : ∃ files t modules,
    hatMill.generate {} none = .ok files ∧ hatMill.HasDistinctDeclarations ∧
      NameTable.ofFiles {} hatMill = .ok t ∧ moduleFiles modules = .ok files ∧
      brimmedHat.fields.map hatMill.reference? =
        [some (".mill.Hat.Brim", .message), some (".mill.Hat.Felt", .enumeration),
          some (".mill.Hat.Brim", .message), some (".google.protobuf.Timestamp", .message)] ∧
      (∀ f ∈ brimmedHat.fields, ∀ typeName kind, hatMill.reference? f = some (typeName, kind) →
        t.Resolves modules typeName kind) ∧
      ∃ site : Site, site.paths = [["mill", "hat", "Brim"], ["mill", "hat", "BrimPartial"]] ∧
        site.DeclaredOnce modules := by
  obtain ⟨files, hfiles⟩ := exists_generate_hatMill
  obtain ⟨t, modules, ht, -, hmodules, -, hall⟩ :=
    DescriptorSet.generate_resolves hfiles distinct_hatMill
  have hresolves : ∀ f ∈ brimmedHat.fields, ∀ typeName kind,
      hatMill.reference? f = some (typeName, kind) → t.Resolves modules typeName kind :=
    fun f hf => hall _ (mem_emittedMessages_hatMill ht) f hf (by revert f; decide)
  have href : brimmedHat.fields.map hatMill.reference? =
      [some (".mill.Hat.Brim", .message), some (".mill.Hat.Felt", .enumeration),
        some (".mill.Hat.Brim", .message), some (".google.protobuf.Timestamp", .message)] := by
    decide +kernel
  refine ⟨files, t, modules, hfiles, distinct_hatMill, ht, hmodules, href, hresolves, ?_⟩
  obtain ⟨hlookup, hpartial⟩ := table_hatMill ht
  obtain ⟨path, hpath, hfound⟩ := hresolves brimmedHat.fields[2] (List.getElem_mem _)
    ".mill.Hat.Brim" .message (by decide +kernel)
  rw [hpath ""] at hlookup
  cases hlookup
  rcases hfound with ⟨_, hexternal⟩ | ⟨site, hsite, hname, hkind, hnames, honce⟩
  · cases hexternal
  · obtain ⟨names, hentry, hsame⟩ := hnames hkind
    rw [hname] at hentry
    rw [hentry] at hpartial
    obtain ⟨hmodule, hident⟩ := TypePath.generated.inj hsite
    refine ⟨site, ?_, honce⟩
    rw [Site.paths, hsame.trans hpartial, ← hmodule, ← hident]
    rfl

/-- A message with a member of a oneof that it does not declare, of a type that no file does. -/
def linedCap : MessageDescriptor :=
  { name := some "Cap"
    fields :=
      [{ referringField "lined" 1 .message ".stand.Missing" with oneofIndex := some 0 }] }

def capStand : DescriptorSet :=
  { files :=
      [ { name := some "stand.proto"
          package := some "stand"
          messageTypes := [linedCap]
          dialect := some "proto3" } ] }

theorem exists_generate_capStand : ∃ files, capStand.generate {} none = .ok files := by
  refine DescriptorSet.generate_of_isWritable ?_
  unfold capStand linedCap
  simp only [DescriptorSet.isWritable, NameTable.ofFiles, NameTable.addFiles, NameTable.addFile,
    NameTable.addMessages_cons, NameTable.addMessages_nil]
  decide +kernel

/-- A schema is generated although a field of a message refers to a type that is not known. -/
theorem generate_linedCap : ∃ files t modules,
    capStand.generate {} none = .ok files ∧ capStand.HasDistinctDeclarations ∧
      NameTable.ofFiles {} capStand = .ok t ∧
      generatedModules {} none t capStand.files = .ok modules ∧ moduleFiles modules = .ok files ∧
      (".stand.Cap", linedCap) ∈ capStand.emittedMessages {} none t ∧
      ∃ f ∈ linedCap.fields, capStand.reference? f = some (".stand.Missing", .message) ∧
        t.lookup "lined" ".stand.Missing" .message =
          .error (.unresolvedType "lined" ".stand.Missing") ∧
        ¬ t.Resolves modules ".stand.Missing" .message := by
  obtain ⟨files, hfiles⟩ := exists_generate_capStand
  obtain ⟨t, modules, ht, hmodules, h⟩ := DescriptorSet.generate_ok hfiles
  have hdistinct : capStand.HasDistinctDeclarations := by
    have hmessages : capStand.allMessages.map (·.1) = [".stand.Cap"] := by cbv
    have henums : capStand.allEnums.map (·.1) = [] := by cbv
    rw [DescriptorSet.HasDistinctDeclarations, hmessages, henums]
    decide
  have htable : ((NameTable.ofFiles {} capStand).map fun t =>
      (entryOf? ".stand.Missing" t.types).isNone).toOption = some true := by
    unfold capStand linedCap
    simp only [NameTable.ofFiles, NameTable.addFiles, NameTable.addFile,
      NameTable.addMessages_cons, NameTable.addMessages_nil]
    decide +kernel
  rw [ht] at htable
  have hnone := Option.some.inj htable
  have hfile : capStand.files[0] ∈ capStand.generatedFiles {} none :=
    List.mem_filter.2 ⟨List.mem_cons_self, by decide +kernel⟩
  have hlookup : t.lookup "lined" ".stand.Missing" .message =
      .error (.unresolvedType "lined" ".stand.Missing") := by
    rw [NameTable.lookup, Option.isNone_iff_eq_none.1 hnone]
  refine ⟨files, t, modules, hfiles, hdistinct, ht, hmodules, h,
    DescriptorSet.mem_emittedMessages_of_declared ht hdistinct hfile List.mem_cons_self
      fun _ _ => rfl,
    _, List.mem_singleton_self _, by decide +kernel, hlookup, ?_⟩
  rintro ⟨path, hpath, -⟩
  rw [hpath "lined"] at hlookup
  cases hlookup

end Protobuf
