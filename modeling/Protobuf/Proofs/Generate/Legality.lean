import Protobuf.Proofs.Generate.CleanCode
import Protobuf.Proofs.Generate.Emission
import Protobuf.Proofs.Names.LegalTable
import Protobuf.Proofs.Names.PathsBelow

/-! # Names never stop the generator

If the names of a schema give usable identifiers, then no identifier is refused on the way to
the generated files, and the code in them has no stray word.  So the generator may refuse the
schema for other reasons, but not for a name.

* `NameTable.resolve_passes`, `FieldModel.ofDescriptor_passes`, `MessageContext.messageModel_passes`:
  the models under a table of usable identifiers.
* `FileItems.items_passes`, `moduleFiles_passes`: the items of files, and the files.
* `names_are_legal`: which names give usable identifiers, and what follows for schemas.
-/

namespace Protobuf

theorem Ident.IsUsable.passes {i : Ident} (h : i.IsUsable) : Passes Ident.IsUsable i.checked := by
  rw [h.checked]
  exact h

namespace RelativePath

variable {p : RelativePath} {source target : List Ident} {ident : Ident}

/-- A way goes down through modules on the way to its end. -/
theorem between_parts (source target : List Ident) (ident : Ident) :
    (∀ i ∈ (between source target ident).down, i ∈ target) ∧
      (between source target ident).ident = ident := by
  fun_induction between source target ident with
  | case1 s source target ident ih => exact ⟨fun i hi => List.mem_cons_of_mem _ (ih.1 i hi), ih.2⟩
  | case2 => exact ⟨fun i hi => hi, rfl⟩
  | case3 => exact ⟨fun i hi => hi, rfl⟩

theorem isClean_code (hdown : ∀ i ∈ p.down, i.IsUsable) (hident : p.ident.IsUsable) :
    p.code.IsClean := by
  unfold code
  split
  · exact Code.isClean_fixed _
  · have hup : ∀ c ∈ List.replicate p.up (Code.fixed "super ::"), c.IsClean := fun c hc =>
      List.eq_of_mem_replicate hc ▸ Code.isClean_fixed _
    simp only [Code.isClean_sequence, List.forall_mem_append, List.forall_mem_map]
    simp +contextual [hdown, hident, hup]

theorem checked_passes (hdown : ∀ i ∈ p.down, i.IsUsable) (hident : p.ident.IsUsable) :
    Passes (fun q => q.code.IsClean) p.checked := by
  refine (passes_mapM fun i hi => (hdown i hi).passes).bind fun _ _ => ?_
  exact hident.passes.bind fun _ _ => isClean_code hdown hident

theorem between_passes (htarget : ∀ i ∈ target, i.IsUsable) (hident : ident.IsUsable) :
    Passes (fun p => p.code.IsClean) (between source target ident).checked := by
  obtain ⟨hdown, hlast⟩ := between_parts source target ident
  exact checked_passes (fun i hi => htarget i (hdown i hi)) (by rwa [hlast])

end RelativePath

namespace NameTable

variable {t : NameTable} {source : List Ident} {field typeName : String}

theorem lookup_passes (ht : t.IsUsable) {kind : TypeKind} :
    Passes TypePath.IsUsable (t.lookup field typeName kind) := by
  unfold lookup
  split
  · rename_i hinfo
    split
    · rfl
    split
    · rfl
    · exact ht.types _ (mem_of_entryOf? hinfo)
  · rfl

theorem externalCode_passes {path : String} (h : IsCleanPath path) :
    Passes Code.IsClean (externalCode typeName path) := by
  unfold externalCode
  split
  · rename_i code hcode
    exact h code hcode
  · rfl

theorem resolve_passes (ht : t.IsUsable) {kind : TypeKind} :
    Passes (fun r => r.code.IsClean) (t.resolve source field typeName kind) := by
  refine (lookup_passes ht).bind fun path hpath => ?_
  cases path with
  | generated module ident =>
    exact (RelativePath.between_passes hpath.1 hpath.2).bind fun p hp => hp
  | external path => exact (externalCode_passes hpath).bind fun code hcode => hcode
  | suppressed => rfl

theorem resolvePartial_passes (ht : t.IsUsable) :
    Passes (fun r => r.code.IsClean) (t.resolvePartial source field typeName) := by
  refine (lookup_passes ht).bind fun path hpath => ?_
  cases path with
  | generated module ident =>
    simp only
    split
    · rename_i names hnames
      have hpartial := (ht.messages _ (mem_of_entryOf? hnames)).idents.partialIdent
      exact (RelativePath.between_passes hpath.1 hpartial).bind fun p hp => hp
    · rfl
  | external path =>
    refine (externalCode_passes hpath).bind fun code hcode => ?_
    show (TypeRef.partialOf code).code.IsClean
    simpa [TypeRef.code] using hcode
  | suppressed => rfl

/-! ## Fields -/

theorem supportedKind_passes (f : FieldDescriptor) : Passes (fun _ => True) f.supportedKind := by
  unfold FieldDescriptor.supportedKind
  split
  · rfl
  · trivial
  · rfl

theorem referredType_passes (f : FieldDescriptor) : Passes (fun _ => True) f.referredType := by
  unfold FieldDescriptor.referredType
  split
  · trivial
  · rfl

variable {name message : String}

theorem valueForm_passes (ht : t.IsUsable) (f : FieldDescriptor) (boxed : Bool) :
    Passes ValueForm.IsClean (t.valueForm source name f boxed) := by
  refine (supportedKind_passes f).bind fun kind _ => ?_
  cases kind with
  | message =>
    refine (referredType_passes f).bind fun typeName _ => ?_
    refine (resolve_passes ht).bind fun path hpath => ?_
    exact (resolvePartial_passes ht).bind fun partialPath hpartial => ⟨hpath, hpartial⟩
  | enumeration =>
    refine (referredType_passes f).bind fun typeName _ => ?_
    exact (resolve_passes ht).bind fun path hpath => hpath
  | scalar k => trivial
  | group => rfl

theorem fieldValue_passes (ht : t.IsUsable) (f : FieldDescriptor) :
    Passes (fun r => r.2.IsClean) (t.fieldValue message source name f) := by
  refine (supportedKind_passes f).bind fun kind _ => ?_
  split
  · refine (referredType_passes f).bind fun typeName _ => ?_
    split
    · rename_i entry _
      refine (supportedKind_passes entry.key).bind fun kind _ => ?_
      split
      · exact (valueForm_passes ht entry.value false).bind fun v hv => hv
      · rfl
    · exact (valueForm_passes ht f false).bind fun v hv => hv
  · exact (valueForm_passes ht f _).bind fun v hv => hv

end NameTable

theorem FieldModel.ofDescriptor_passes {t : NameTable} (ht : t.IsUsable) {message : String}
    {source : List Ident} (f : FieldDescriptor) {ident : Ident} (hident : ident.IsUsable)
    (inOneof : Bool) :
    Passes FieldModel.IsClean (FieldModel.ofDescriptor t message source f ident inOneof) := by
  refine f.passes_nameAndNumber.bind fun p _ => ?_
  refine (NameTable.fieldValue_passes ht f).bind fun r hr => ?_
  exact hident.passes.bind fun i hi => ⟨hi, hr⟩

/-! ## Messages and enums -/

namespace MessageContext

variable {ctx : MessageContext} {names : MessageNames}

theorem fieldModels_passes (ht : ctx.table.IsUsable) (hnames : names.IsUsable)
    (fields : List FieldDescriptor) :
    Passes (fun models => ∀ f ∈ models, f.IsClean) (ctx.fieldModels names fields) := by
  refine passes_foldlM (by simp) ?_
  rintro models hmodels ⟨f, index⟩ -
  simp only
  split
  · exact hmodels
  split
  · exact hmodels
  · rename_i ident hident
    obtain ⟨n, -, hentry⟩ := Option.bind_eq_some_iff.1 hident
    have husable := hnames.fields _ (mem_of_entryOf? hentry)
    refine (FieldModel.ofDescriptor_passes ht f husable false).bind fun model hmodel => ?_
    exact List.forall_mem_append.2 ⟨hmodels, List.forall_mem_singleton.2 ⟨hmodel.ident, hmodel.value⟩⟩

theorem oneofModel_passes (ht : ctx.table.IsUsable) {module : Ident} (hmodule : module.IsUsable)
    {g : OneofGroup} (hmembers : ∀ f ∈ g.members, f.HasUsableName) {oneofNames : OneofNames}
    (hnames : oneofNames.IsUsable) (fields : List FieldDescriptor) :
    Passes OneofModel.IsClean (ctx.oneofModel module fields g oneofNames) := by
  refine (passes_required g.oneof.name).bind fun name _ => ?_
  refine hmodule.passes.bind fun module hmodule => ?_
  refine hnames.ident.passes.bind fun ident hident => ?_
  refine Passes.bind (P := fun variants => ∀ v ∈ variants, VariantModel.IsClean v)
    (passes_foldlM (by simp) ?_) fun variants hvariants => ?_
  · intro variants hvariants f hf
    split
    · exact hvariants
    · rename_i variant hvariant
      refine (passes_required f.name).bind fun fieldName hname => ?_
      obtain ⟨hschema, hne⟩ := (hmembers f hf).name fieldName hname
      have hfield := (Ident.usable_ofField hschema).2 hne
      refine (FieldModel.ofDescriptor_passes ht f hfield true).bind fun model hmodel => ?_
      refine (FieldModel.ofDescriptor_passes ht f hfield true).bind fun inner hinner => ?_
      refine (hnames.variants _ (mem_of_entryOf? hvariant)).passes.bind fun variant hvariant => ?_
      exact List.forall_mem_append.2 ⟨hvariants, List.forall_mem_singleton.2
        ⟨hvariant, ⟨hmodel.ident, hmodel.value⟩, hinner⟩⟩
  · exact hnames.field.passes.bind fun field hfield => ⟨hfield, hmodule, hident, hvariants⟩

theorem messageModel_passes (ht : ctx.table.IsUsable) {m : MessageDescriptor} (hm : m.HasUsableNames) :
    Passes MessageModel.IsClean (ctx.messageModel m) := by
  obtain ⟨-, hfields, -, -, -⟩ := hm
  unfold messageModel
  split
  · rfl
  · rename_i names hentry
    have hnames := ht.messages _ (mem_of_entryOf? hentry)
    refine (fieldModels_passes ht hnames m.fields).bind fun models hmodels => ?_
    refine Passes.bind (P := fun oneofs => ∀ o ∈ oneofs, OneofModel.IsClean o)
      (passes_foldlM (by simp) ?_) fun oneofs honeofs => ?_
    · intro oneofs honeofs g hg
      split
      · exact honeofs
      · rename_i oneofNames honeof
        have hmembers : ∀ f ∈ g.members, f.HasUsableName := fun f hf =>
          hfields f ((mem_members_iff hg).1 hf).1
        refine (oneofModel_passes ht hnames.idents.module hmembers
          (hnames.oneofs _ (mem_of_entryOf? honeof)) m.fields).bind fun o ho => ?_
        exact List.forall_mem_append.2 ⟨honeofs, List.forall_mem_singleton.2 ho⟩
    · refine hnames.idents.ident.passes.bind fun ident hident => ?_
      refine hnames.idents.partialIdent.passes.bind fun partialIdent hpartial => ?_
      exact ⟨hident, hpartial, hmodels, honeofs⟩

end MessageContext

theorem EnumModel.ofDescriptor_passes {names : EnumNames} (hnames : names.IsUsable)
    (file : FileDescriptor) (typeName : String) (path : ElementPath) (e : EnumDescriptor) :
    Passes EnumModel.IsClean (EnumModel.ofDescriptor file typeName path e names) := by
  refine hnames.ident.passes.bind fun ident hident => ?_
  refine Passes.bind (P := fun values => ∀ v ∈ values, v.ident.IsUsable) (passes_mapM ?_)
    fun values hvalues => ⟨hident, hvalues⟩
  rintro ⟨⟨v, named⟩, index⟩ hmem
  have hnamed := hnames.values named (List.of_mem_zip (List.fst_mem_of_mem_zipIdx hmem)).2
  refine (passes_required v.name).bind fun name _ => ?_
  split
  · rfl
  · exact hnamed.passes.bind fun ident hident => hident

/-! ## Items -/

namespace FileItems

variable {fi : FileItems}

theorem enums_passes (ht : fi.table.IsUsable) (scope : String) (path : Nat → ElementPath)
    (enums : List EnumDescriptor) :
    Passes (fun items => ∀ i ∈ items, i.code.IsClean) (fi.enums scope path enums) := by
  refine passes_foldlM (by simp) ?_
  rintro items hitems ⟨e, index⟩ -
  refine (passes_required e.name).bind fun name _ => ?_
  simp only
  split
  · rename_i names hentry
    split
    · refine (EnumModel.ofDescriptor_passes (ht.enums _ (mem_of_entryOf? hentry)) ..).bind
        fun model hmodel => ?_
      refine List.forall_mem_append.2 ⟨hitems, List.forall_mem_singleton.2 ?_⟩
      rw [Item.code]
      exact EnumModel.isClean_code hmodel
    · exact hitems
  · exact hitems

theorem model?_passes (ht : fi.table.IsUsable) {m : MessageDescriptor} (hm : m.HasUsableNames)
    (typeName : String) (module : List Ident) (path : ElementPath) :
    Passes (fun model? => ∀ model ∈ model?, model.IsClean) (fi.model? typeName module path m) := by
  unfold model?
  split
  · refine (MessageContext.messageModel_passes ht hm).bind fun model hmodel => ?_
    rintro _ ⟨⟩
    exact hmodel
  · rintro _ ⟨⟩

theorem itemsCode_eq (items : List Item) : itemsCode items = items.map Item.code := by
  induction items with
  | nil => rw [itemsCode, List.map_nil]
  | cons i items ih => rw [itemsCode, ih, List.map_cons]

/-- The code of a module with clean items in it is clean. -/
theorem isClean_module {ident : Ident} (hident : ident.IsUsable) {items : List Item}
    (hitems : ∀ i ∈ items, i.code.IsClean) : (Item.module ident items).code.IsClean := by
  rw [Item.code, itemsCode_eq]
  simp only [Code.isClean_sequence, Code.isClean_braces, List.forall_mem_cons, List.forall_mem_map]
  simpa [hident] using hitems

mutual

theorem message_passes (ht : fi.table.IsUsable) {typeName : String} {module : List Ident}
    {path : ElementPath} : {m : MessageDescriptor} → m.HasUsableNames →
      Passes (fun items => ∀ i ∈ items, i.code.IsClean) (fi.message typeName module path m)
  | ⟨name, fields, nestedTypes, enumTypes, options, oneofs⟩, hm => by
    obtain ⟨-, -, -, henums, hnested⟩ := id hm
    rw [message]
    split
    · exact fun i hi => by cases hi
    · rename_i names hentry
      have hmodule := (ht.messages _ (mem_of_entryOf? hentry)).idents.module
      refine (model?_passes ht hm typeName module path).bind fun model? hmodel => ?_
      refine (enums_passes ht _ _ enumTypes).bind fun enumItems henumItems => ?_
      refine (nested_passes ht hnested).bind fun messageItems hmessageItems => ?_
      have hown : ∀ i ∈ model?.toList.map Item.message, i.code.IsClean := by
        rw [List.forall_mem_map]
        intro model hmem
        rw [Item.code]
        exact MessageModel.isClean_code (hmodel model (Option.mem_toList.1 hmem))
      have honeofs : ∀ i ∈ model?.toList.flatMap fun model => model.oneofs.map Item.oneof,
          i.code.IsClean := by
        intro i hi
        obtain ⟨model, hmem, hi⟩ := List.mem_flatMap.1 hi
        obtain ⟨o, ho, rfl⟩ := List.mem_map.1 hi
        rw [Item.code]
        exact OneofModel.isClean_enumCode ((hmodel model (Option.mem_toList.1 hmem)).oneofs o ho)
      have hinner := List.forall_mem_append.2
        ⟨List.forall_mem_append.2 ⟨honeofs, henumItems⟩, hmessageItems⟩
      split
      · exact hown
      · refine hmodule.passes.bind fun ident hident => ?_
        exact List.forall_mem_append.2
          ⟨hown, List.forall_mem_singleton.2 (isClean_module hident hinner)⟩

theorem nested_passes (ht : fi.table.IsUsable) {scope : String} {module : List Ident}
    {path : ElementPath} {index : Nat} : {ms : List MessageDescriptor} →
      (∀ m ∈ ms, m.HasUsableNames) →
      Passes (fun items => ∀ i ∈ items, i.code.IsClean) (fi.nested scope module path index ms)
  | [], _ => by
    rw [nested]
    exact fun i hi => by cases hi
  | m :: rest, hms => by
    rw [List.forall_mem_cons] at hms
    rw [nested]
    split
    · exact nested_passes ht hms.2
    · refine (passes_required m.name).bind fun name _ => ?_
      refine (message_passes ht hms.1).bind fun items hitems => ?_
      refine (nested_passes ht hms.2).bind fun more hmore => ?_
      exact List.forall_mem_append.2 ⟨hitems, hmore⟩

end

theorem items_passes (ht : fi.table.IsUsable) (hf : fi.file.HasUsableNames) :
    Passes (fun items => ∀ i ∈ items, i.code.IsClean) fi.items := by
  refine (enums_passes ht _ _ _).bind fun enumItems henumItems => ?_
  refine Passes.bind (P := fun items => ∀ i ∈ items, i.code.IsClean) (passes_foldlM (by simp) ?_)
    fun messageItems hmessageItems => List.forall_mem_append.2 ⟨henumItems, hmessageItems⟩
  rintro items hitems ⟨m, index⟩ hmem
  refine (passes_required m.name).bind fun name _ => ?_
  have hm := hf.messages m (List.fst_mem_of_mem_zipIdx hmem)
  exact (message_passes ht hm).bind fun more hmore => List.forall_mem_append.2 ⟨hitems, hmore⟩

end FileItems

/-! ## Files -/

theorem FieldDescriptor.check_passes (file : String) (f : FieldDescriptor) :
    Passes (fun _ => True) (f.check file) := by
  unfold FieldDescriptor.check
  split
  · rfl
  split
  · rfl
  split
  · rfl
  · trivial

mutual

theorem MessageDescriptor.check_passes (file : String) :
    (m : MessageDescriptor) → Passes (fun _ => True) (m.check file)
  | ⟨_, fields, nestedTypes, _, _, _⟩ => by
    rw [MessageDescriptor.check]
    exact (passes_forM fun f _ => f.check_passes file).bind fun _ _ =>
      checkMessages_passes file nestedTypes

theorem checkMessages_passes (file : String) :
    (ms : List MessageDescriptor) → Passes (fun _ => True) (checkMessages file ms)
  | [] => by
    rw [checkMessages]
    trivial
  | m :: rest => by
    rw [checkMessages]
    exact (m.check_passes file).bind fun _ _ => checkMessages_passes file rest

end

theorem FileDescriptor.check_passes (f : FileDescriptor) : Passes (fun _ => True) f.check := by
  unfold FileDescriptor.check
  simp only
  split
  · exact checkMessages_passes _ _
  · rfl

structure IsCleanModule (e : String × List Item) : Prop where
  name : (⟨e.1, false⟩ : Ident).IsUsable
  items : ∀ i ∈ e.2, i.code.IsClean

theorem isCleanModule_moduleIdent {f : FileDescriptor} (h : f.moduleIdent.IsUsable)
    {items : List Item} (hitems : ∀ i ∈ items, i.code.IsClean) :
    IsCleanModule (f.moduleIdent.text, items) := by
  have hident : f.moduleIdent = ⟨f.moduleIdent.text, false⟩ :=
    NameTable.moduleIdent_eq_iff.2 (NameTable.text_moduleIdent f).symm
  generalize f.moduleIdent = ident at h hident
  exact ⟨hident ▸ h, hitems⟩

theorem addToModule_isClean {name : String} {items : List Item} {modules : List (String × List Item)}
    (h : IsCleanModule (name, items)) (hmodules : ∀ e ∈ modules, IsCleanModule e) :
    ∀ e ∈ addToModule name items modules, IsCleanModule e := by
  intro e he
  rcases mem_insertByKey_imp he with rfl | he
  · refine ⟨h.name, List.forall_mem_append.2 ⟨?_, h.items⟩⟩
    cases hentry : entryOf? name modules with
    | none => simp
    | some before => exact (hmodules _ (mem_of_entryOf? hentry)).items
  · exact hmodules e he

variable {settings : Settings} {targets : Option (List String)} {t : NameTable}

theorem generatedModules_passes (ht : t.IsUsable) {files : List FileDescriptor}
    (hfiles : ∀ f ∈ files, f.HasUsableNames) :
    Passes (fun modules => ∀ e ∈ modules, IsCleanModule e)
      (generatedModules settings targets t files) := by
  refine passes_foldlM (by simp) ?_
  intro modules hmodules f hf
  refine (passes_required f.name).bind fun name _ => ?_
  split
  · refine f.check_passes.bind fun _ _ => ?_
    refine (FileItems.items_passes ht (hfiles f hf)).bind fun items hitems => ?_
    split
    · exact hmodules
    · refine addToModule_isClean (isCleanModule_moduleIdent ?_ hitems) hmodules
      exact usable_moduleIdent (hfiles f hf).module
  · exact hmodules

theorem generatedFile_passes {name : String} {code : Code} (h : code.IsClean) :
    Passes (fun _ => True) (generatedFile name code) := by
  rw [generatedFile, show code.hasStrayWord = false from h]
  trivial

theorem moduleDeclaration_passes {name : String} (h : (⟨name, false⟩ : Ident).IsUsable) :
    Passes Code.IsClean (moduleDeclaration name) := by
  refine h.passes.bind fun ident hident => ?_
  show Code.IsClean (.sequence _)
  simp [hident]

/-- The files of clean modules parse, and so does the one that declares these. -/
theorem moduleFiles_passes {modules : List (String × List Item)}
    (h : ∀ e ∈ modules, IsCleanModule e) : Passes (fun _ => True) (moduleFiles modules) := by
  refine (passes_mapM fun e he => generatedFile_passes ?_).bind fun files _ => ?_
  · rw [FileItems.itemsCode_eq, Code.isClean_sequence, List.forall_mem_map]
    exact (h e he).items
  refine (passes_mapM fun e he => moduleDeclaration_passes (h e he).name).bind
    fun declarations hdeclarations => ?_
  exact (generatedFile_passes (Code.isClean_sequence.2 hdeclarations)).bind fun _ _ => trivial

/-- A schema whose names give usable identifiers is not refused because of a name. -/
theorem DescriptorSet.generate_passes {s : DescriptorSet} (hpaths : settings.HasCleanPaths)
    (h : s.HasUsableNames) : Passes (fun _ => True) (s.generate settings targets) := by
  refine (NameTable.ofFiles_passes hpaths h).bind fun t ht => ?_
  exact (generatedModules_passes ht h).bind fun modules hmodules => moduleFiles_passes hmodules

/-! ## Names of schemas -/

/-- Which names of schemas give usable identifiers: for types, modules and fields all but a lone
    underscore, and for what joined words name all that have words.  A schema whose names do is
    never refused because of a name. -/
theorem names_are_legal (s : DescriptorSet) (settings : Settings) (targets : Option (List String)) :
    (∀ name, isSchemaName name →
      ((Ident.ofType name).IsUsable ↔ name ≠ "_") ∧ ((Ident.ofModule name).IsUsable ↔ name ≠ "_") ∧
        ((Ident.ofField name).IsUsable ↔ name ≠ "_") ∧
        ((Ident.ofType (pascalCase name)).IsUsable ↔ ∃ c ∈ name.toList, c ≠ '_') ∧
        ((Ident.ofType (variantCase name)).IsUsable ↔ ∃ c ∈ name.toList, c ≠ '_')) ∧
      (settings.HasCleanPaths → s.HasUsableNames → ∀ e, s.generate settings targets = .error e →
        (∀ name, e ≠ .notAnIdentifier name) ∧ e ≠ .unparsableCode) := by
  refine ⟨fun name h => Ident.usable_iff h, fun hpaths hnames e he => ?_⟩
  have hblame := (DescriptorSet.generate_passes hpaths hnames).of_error he
  constructor
  · rintro name rfl
    cases hblame
  · rintro rfl
    cases hblame

def hatAndSize (message value fieldType : String) : DescriptorSet :=
  { files :=
      [ { name := some "stand.proto"
          package := some "stand"
          messageTypes :=
            [ { name := some message
                fields :=
                  [ { name := some "self"
                      number := some 1
                      type := some 14
                      typeName := some fieldType } ] } ]
          enumTypes := [{ name := some "Size", values := [{ name := some value, number := some 0 }] }]
          dialect := some "proto3" } ] }

theorem hasUsableNames_hatAndSize : (hatAndSize "Self" "self" ".stand.Brim").HasUsableNames := by
  have hself : isSchemaName "self" ∧ HasWords "self" := ⟨by decide, 's', by decide, by decide⟩
  intro f hf
  rw [hatAndSize, List.mem_singleton] at hf
  subst hf
  refine ⟨by decide +kernel, List.forall_mem_singleton.2 ⟨by decide, ?_⟩, List.forall_mem_singleton.2 ?_⟩
  · rw [List.forall_mem_singleton]
    rintro _ ⟨⟩
    exact hself
  · have hfield : ∀ name ∈ some "self", isSchemaName name ∧ name ≠ "_" := by decide
    exact .mk (by decide) (List.forall_mem_singleton.2 ⟨hfield, fun h => absurd h (by decide)⟩)
      (by simp) (by simp) (by simp)

/-- Keywords are names like others, so what is wrong with a schema of these is a type that it
    does not declare. -/
theorem names_are_legal_self :
    (Ident.ofField "self").IsUsable ∧ (Ident.ofType (variantCase "self")).IsUsable ∧
      (hatAndSize "Self" "self" ".stand.Brim").generate {} none =
        .error (.unresolvedType "self" ".stand.Brim") ∧
      ∀ name, GenerateError.unresolvedType "self" ".stand.Brim" ≠ .notAnIdentifier name := by
  obtain ⟨hnames, hschema⟩ := names_are_legal (hatAndSize "Self" "self" ".stand.Brim") {} none
  obtain ⟨-, -, hfield, -, hvariant⟩ := hnames "self" (by decide)
  have herror : (hatAndSize "Self" "self" ".stand.Brim").generate {} none =
      .error (.unresolvedType "self" ".stand.Brim") := by
    simp only [hatAndSize, DescriptorSet.generate, NameTable.ofFiles, NameTable.addFiles,
      NameTable.addFile, NameTable.addMessages_cons, NameTable.addMessages_nil]
    decide +kernel
  have hpaths : Settings.HasCleanPaths {} := fun typeName path hpath => by
    rw [externPath?_nil] at hpath
    cases hpath
  exact ⟨hfield.2 (by decide), hvariant.2 ⟨'s', by decide, by decide⟩, herror,
    (hschema hpaths hasUsableNames_hatAndSize _ herror).1⟩

/-- A lone underscore is a name, and no identifier that it gives can be used.  As the name of a
    message it gives code that does not parse, and as that of a value no identifier at all. -/
theorem underscore_not_legal :
    isSchemaName "_" ∧ isSchemaName "__" ∧ ¬(Ident.ofType "_").IsUsable ∧
      ¬(Ident.ofModule "_").IsUsable ∧ ¬(Ident.ofField "_").IsUsable ∧
      ¬(Ident.ofType (pascalCase "__")).IsUsable ∧ ¬(Ident.ofType (variantCase "__")).IsUsable ∧
      (hatAndSize "_" "SMALL" ".stand.Size").generate {} none = .error .unparsableCode ∧
      (hatAndSize "Hat" "_" ".stand.Size").generate {} none = .error (.notAnIdentifier "") := by
  refine ⟨by decide, by decide, by decide, by decide +kernel, by decide +kernel, by decide +kernel,
    by decide +kernel, ?_, ?_⟩
  all_goals
    simp only [hatAndSize, DescriptorSet.generate, NameTable.ofFiles, NameTable.addFiles,
      NameTable.addFile, NameTable.addMessages_cons, NameTable.addMessages_nil]
    decide +kernel

end Protobuf
