import Protobuf.Proofs.Names.Legality

/-! # A table of usable identifiers

If the names of a schema give usable identifiers, then so are all identifiers that the table of
names has: those that were asked for, and those that a scope granted instead.

* `Passes`: steps that do not fail because of a word, and what comes of them.
* `DescriptorSet.HasUsableNames`: schemas whose names all give usable identifiers.
* `NameTable.IsUsable`: tables all of whose identifiers are usable.
* `NameTable.ofFiles_passes`: the table of such a schema is such a table.
-/

namespace Protobuf

/-- Whether an error lays the blame on a word that is no identifier, or stands for nothing. -/
def GenerateError.blamesWord : GenerateError → Bool
  | .notAnIdentifier _ | .unparsableCode => true
  | _ => false

section

variable {α β σ : Type} {P : α → Prop} {Q : β → Prop}

/-- Steps do not fail because of a word, and if they do not fail at all, then something holds of
    their outcome. -/
def Passes (P : α → Prop) : Except GenerateError α → Prop
  | .ok a => P a
  | .error e => e.blamesWord = false

theorem Passes.of_error {x : Except GenerateError α} {e : GenerateError} (h : Passes P x)
    (hx : x = .error e) : e.blamesWord = false := by
  subst hx
  exact h

theorem Passes.imp {R : α → Prop} {x : Except GenerateError α} (h : Passes P x)
    (himp : ∀ a, P a → R a) : Passes R x := by
  cases x with
  | ok a => exact himp a h
  | error e => exact h

theorem Passes.bind {x : Except GenerateError α} {f : α → Except GenerateError β} (h : Passes P x)
    (hf : ∀ a, P a → Passes Q (f a)) : Passes Q (x >>= f) := by
  cases x with
  | ok a => exact hf a h
  | error e => exact h

/-- What holds at the start and is kept by each step holds at the end. -/
theorem passes_foldlM {I : σ → Prop} {f : σ → α → Except GenerateError σ} {as : List α} {s : σ}
    (start : I s) (step : ∀ s, I s → ∀ a ∈ as, Passes I (f s a)) : Passes I (as.foldlM f s) := by
  induction as generalizing s with
  | nil => exact start
  | cons a as ih =>
    rw [List.foldlM_cons]
    exact (step s start a List.mem_cons_self).bind fun s' hs' =>
      ih hs' fun s hs b hb => step s hs b (List.mem_cons_of_mem _ hb)

theorem passes_mapM {f : α → Except GenerateError β} {as : List α} (h : ∀ a ∈ as, Passes Q (f a)) :
    Passes (fun bs => ∀ b ∈ bs, Q b) (as.mapM f) := by
  induction as with
  | nil => exact fun b hb => by cases hb
  | cons a as ih =>
    rw [List.mapM_cons]
    refine (h a List.mem_cons_self).bind fun b hb => ?_
    refine (ih fun a' ha' => h a' (List.mem_cons_of_mem _ ha')).bind fun bs hbs => ?_
    exact List.forall_mem_cons.2 ⟨hb, hbs⟩

theorem passes_forM {f : α → Except GenerateError Unit} {as : List α}
    (h : ∀ a ∈ as, Passes (fun _ => True) (f a)) : Passes (fun _ => True) (as.forM f) := by
  induction as with
  | nil => trivial
  | cons a as ih =>
    rw [List.forM_eq_forM, List.forM_cons]
    exact (h a List.mem_cons_self).bind fun _ _ => ih fun b hb => h b (List.mem_cons_of_mem _ hb)

theorem passes_required (name : Option String) : Passes (· ∈ name) (required name) := by
  cases name with
  | none => rfl
  | some name => rfl

theorem FieldDescriptor.passes_nameAndNumber (f : FieldDescriptor) :
    Passes (fun p => p.1 ∈ f.name) f.nameAndNumber := by
  refine (passes_required f.name).bind fun name hname => ?_
  split
  · exact hname
  · rfl

end

/-! ## Names that give usable identifiers -/

/-- A name has a character other than an underscore, so that something is left of its words
    when they are joined. -/
def HasWords (name : String) : Prop := ∃ c ∈ name.toList, c ≠ '_'

theorem HasWords.ne_underscore {name : String} (h : HasWords name) : name ≠ "_" := by
  rintro rfl
  obtain ⟨c, hc, hne⟩ := h
  exact hne (by simpa using hc)

structure FieldDescriptor.HasUsableName (f : FieldDescriptor) : Prop where
  name : ∀ name ∈ f.name, isSchemaName name ∧ name ≠ "_"
  variant : f.isOneofMember → ∀ name ∈ f.name, HasWords name

structure EnumDescriptor.HasUsableNames (e : EnumDescriptor) : Prop where
  name : ∀ name ∈ e.name, isSchemaName name ∧ name ≠ "_"
  values : ∀ v ∈ e.values, ∀ name ∈ v.name, isSchemaName name ∧ HasWords name

inductive MessageDescriptor.HasUsableNames : MessageDescriptor → Prop
  | mk {m : MessageDescriptor} (name : ∀ name ∈ m.name, isSchemaName name ∧ name ≠ "_")
      (fields : ∀ f ∈ m.fields, f.HasUsableName)
      (oneofs : ∀ o ∈ m.oneofs, ∀ name ∈ o.name, isSchemaName name ∧ HasWords name)
      (enums : ∀ e ∈ m.enumTypes, e.HasUsableNames)
      (nested : ∀ n ∈ m.nestedTypes, n.HasUsableNames) : m.HasUsableNames

/-- The names in a file, and that of its module, which its package or the file itself gives. -/
structure FileDescriptor.HasUsableNames (f : FileDescriptor) : Prop where
  module : f.moduleIdent.word ≠ "_"
  enums : ∀ e ∈ f.enumTypes, e.HasUsableNames
  messages : ∀ m ∈ f.messageTypes, m.HasUsableNames

def DescriptorSet.HasUsableNames (s : DescriptorSet) : Prop := ∀ f ∈ s.files, f.HasUsableNames

/-- The path that code has for a type which is not generated does not begin with a stray word. -/
def IsCleanPath (path : String) : Prop :=
  ∀ code, CodePath.parse? path = some code → code.hasStrayWord = false

def Settings.HasCleanPaths (settings : Settings) : Prop :=
  ∀ typeName path, externPath? settings.externPaths typeName = some path → IsCleanPath path

/-! ## Usable tables -/

structure MessageIdents.IsUsable (i : MessageIdents) : Prop where
  ident : i.ident.IsUsable
  partialIdent : i.partialIdent.IsUsable
  module : i.module.IsUsable

structure OneofNames.IsUsable (names : OneofNames) : Prop where
  field : names.field.IsUsable
  ident : names.ident.IsUsable
  variants : ∀ v ∈ names.variants, v.2.IsUsable

structure MessageNames.IsUsable (names : MessageNames) : Prop where
  idents : names.idents.IsUsable
  fields : ∀ f ∈ names.fields, f.2.IsUsable
  oneofs : ∀ o ∈ names.oneofs, o.2.IsUsable

structure EnumNames.IsUsable (names : EnumNames) : Prop where
  ident : names.ident.IsUsable
  values : ∀ v ∈ names.values, v.ident.IsUsable

def TypePath.IsUsable : TypePath → Prop
  | .generated module ident => (∀ i ∈ module, i.IsUsable) ∧ ident.IsUsable
  | .external path => IsCleanPath path
  | .suppressed => True

structure NameTable.IsUsable (t : NameTable) : Prop where
  types : ∀ e ∈ t.types, e.2.path.IsUsable
  messages : ∀ e ∈ t.messages, e.2.IsUsable
  enums : ∀ e ∈ t.enums, e.2.IsUsable

/-! ## What scopes grant -/

section

variable {wish : Ident} {name : String}

theorem Ident.IsUsable.claim (h : wish.IsUsable) (s : Scope) : (s.claim wish).1.IsUsable :=
  h.of_yields (Scope.yields_free ..)

theorem usable_claimAll {wishes : List Ident} (h : ∀ wish ∈ wishes, wish.IsUsable) (s : Scope) :
    ∀ i ∈ (Scope.claimAll wishes s).1, i.IsUsable := by
  induction wishes generalizing s with
  | nil => simp [Scope.claimAll]
  | cons wish rest ih =>
    rw [List.forall_mem_cons] at h
    rw [Scope.claimAll]
    exact List.forall_mem_cons.2 ⟨h.1.claim s, ih h.2 _⟩

/-- Messages and enums with usable names are granted usable identifiers in their module. -/
theorem usable_claimModule {messages enums : List String}
    (hmessages : ∀ name ∈ messages, isSchemaName name ∧ name ≠ "_")
    (henums : ∀ name ∈ enums, isSchemaName name ∧ name ≠ "_") (scope : Scope) :
    (∀ i ∈ (claimModule messages enums scope).1.messages, i.IsUsable) ∧
      ∀ i ∈ (claimModule messages enums scope).1.enums, i.IsUsable := by
  have htypes : ∀ names : List String, (∀ name ∈ names, isSchemaName name ∧ name ≠ "_") →
      ∀ wish ∈ names.map Ident.ofType, wish.IsUsable := by
    intro names h
    rw [List.forall_mem_map]
    exact fun name hname => (Ident.usable_iff (h name hname).1).1.2 (h name hname).2
  have hmodules : ∀ wish ∈ messages.map Ident.ofModule, wish.IsUsable := by
    rw [List.forall_mem_map]
    exact fun name hname => (Ident.usable_ofModule (hmessages name hname).1).2 (hmessages name hname).2
  have hidents := usable_claimAll (htypes messages hmessages) scope
  simp only [claimModule]
  refine ⟨?_, usable_claimAll (htypes enums henums) _⟩
  rw [List.forall_mem_map]
  rintro ⟨i, p, m⟩ hmem
  obtain ⟨hi, hpm⟩ := List.of_mem_zip hmem
  obtain ⟨hp, hm⟩ := List.of_mem_zip hpm
  refine ⟨hidents i hi, usable_claimAll (fun wish hwish => ?_) _ p hp, usable_claimAll hmodules _ m hm⟩
  obtain ⟨ident, hident, rfl⟩ := List.mem_map.1 hwish
  exact (hidents ident hident).partial

/-! ## Names inside messages, enums and files -/

variable {message : String}

theorem nameFields_passes {fields : List FieldDescriptor} (h : ∀ f ∈ fields, f.HasUsableName) :
    Passes (fun r : List (Int32 × Ident) × Scope => ∀ e ∈ r.1, e.2.IsUsable)
      (nameFields message fields) := by
  refine passes_foldlM (by simp) ?_
  rintro ⟨named, scope⟩ hnamed f hf
  refine f.passes_nameAndNumber.bind fun p hname => ?_
  obtain ⟨hschema, hne⟩ := (h f hf).name _ hname
  simp only
  split
  · rfl
  · exact List.forall_mem_append.2 ⟨hnamed, List.forall_mem_singleton.2
      (((Ident.usable_ofField hschema).2 hne).claim scope)⟩

theorem nameVariants_passes {fields : List (Int32 × Ident)} {members : List FieldDescriptor}
    (h : ∀ f ∈ members, ∀ name ∈ f.name, isSchemaName name ∧ HasWords name) :
    Passes (fun variants => ∀ v ∈ variants, v.2.IsUsable) (nameVariants message fields members) := by
  refine Passes.bind (P := fun r : List (Int32 × Ident) × Scope => ∀ v ∈ r.1, v.2.IsUsable)
    (passes_foldlM (by simp) ?_) fun ⟨_, _⟩ hvariants => hvariants
  rintro ⟨variants, scope⟩ hvariants f hf
  refine f.passes_nameAndNumber.bind fun p hname => ?_
  obtain ⟨hschema, hwords⟩ := h f hf _ hname
  simp only
  split
  · rfl
  · exact List.forall_mem_append.2 ⟨hvariants, List.forall_mem_singleton.2
      (((Ident.usable_iff hschema).2.2.2.1.2 hwords).claim scope)⟩

theorem nameOneofs_passes {fields : List (Int32 × Ident)} {struct module : Scope}
    {groups : List OneofGroup}
    (honeofs : ∀ g ∈ groups, ∀ name ∈ g.oneof.name, isSchemaName name ∧ HasWords name)
    (hmembers : ∀ g ∈ groups, ∀ f ∈ g.members, ∀ name ∈ f.name, isSchemaName name ∧ HasWords name) :
    Passes (fun oneofs => ∀ o ∈ oneofs, o.2.IsUsable)
      (nameOneofs message fields struct module groups) := by
  refine Passes.bind (P := fun r : List (Nat × OneofNames) × Scope × Scope => ∀ o ∈ r.1, o.2.IsUsable)
    (passes_foldlM (by simp) ?_) fun ⟨_, _, _⟩ hdone => hdone
  rintro ⟨oneofs, struct, module⟩ hdone g hg
  refine (passes_required _).bind fun name hname => ?_
  refine (nameVariants_passes (hmembers g hg)).bind fun variants hvariants => ?_
  obtain ⟨hschema, hwords⟩ := honeofs g hg name hname
  obtain ⟨-, -, hfield, hident, -⟩ := Ident.usable_iff hschema
  exact List.forall_mem_append.2 ⟨hdone, List.forall_mem_singleton.2
    ⟨(hfield.2 hwords.ne_underscore).claim struct, (hident.2 hwords).claim module, hvariants⟩⟩

theorem messageNames_passes {m : MessageDescriptor} {idents : MessageIdents} (h : m.HasUsableNames)
    (hidents : idents.IsUsable) (module : Scope) :
    Passes MessageNames.IsUsable (messageNames m idents module) := by
  obtain ⟨-, hfields, honeofs, -, -⟩ := h
  refine (nameFields_passes fun f hf => hfields f (List.mem_of_mem_filter hf)).bind fun r hr => ?_
  refine (nameOneofs_passes ?_ ?_).bind fun oneofs hdone => ?_
  · exact fun g hg => honeofs _ (oneof_mem_of_mem_oneofGroups hg)
  · intro g hg f hf name hname
    obtain ⟨hf, hmember, -⟩ := (mem_members_iff hg).1 hf
    exact ⟨((hfields f hf).name name hname).1, (hfields f hf).variant hmember name hname⟩
  · simp only
    split
    · rfl
    · exact ⟨hidents, hr, hdone⟩

theorem enumNames_passes {e : EnumDescriptor} {ident : Ident} (h : e.HasUsableNames)
    (hident : ident.IsUsable) : Passes EnumNames.IsUsable (enumNames ident e) := by
  refine Passes.bind (P := fun r : List EnumValueNames × List (Int32 × Ident) × Scope =>
      (∀ v ∈ r.1, v.ident.IsUsable) ∧ ∀ v ∈ r.2.1, v.2.IsUsable)
    (passes_foldlM (by simp) ?_) fun ⟨_, _, _⟩ hvalues => ⟨hident, hvalues.1⟩
  rintro ⟨values, variants, scope⟩ ⟨hvalues, hvariants⟩ v hv
  refine (passes_required v.name).bind fun name hname => ?_
  simp only
  split
  · rename_i number hnumber
    refine Passes.bind (P := fun _ => True) trivial fun number _ => ?_
    split
    · -- An alias has the identifier of a value before it.
      rename_i variant hvariant
      exact ⟨List.forall_mem_append.2 ⟨hvalues, List.forall_mem_singleton.2
        (hvariants _ (mem_of_entryOf? hvariant))⟩, hvariants⟩
    · obtain ⟨hschema, hwords⟩ := h.values v hv name hname
      have hclaimed := ((Ident.usable_iff hschema).2.2.2.2.2 hwords).claim scope
      exact ⟨List.forall_mem_append.2 ⟨hvalues, List.forall_mem_singleton.2 hclaimed⟩,
        List.forall_mem_append.2 ⟨hvariants, List.forall_mem_singleton.2 hclaimed⟩⟩
  · exact Passes.bind (P := fun _ => False) rfl fun _ h => h.elim

end

theorem fileStem?_ne_empty {path stem : String} (h : fileStem? path = some stem) : stem ≠ "" := by
  unfold fileStem? at h
  split at h
  · cases h
  · cases h
  · rename_i name _ hlast
    have hname : name ≠ "" := by
      have hmem := (List.mem_filter.1 (List.mem_of_getLast? hlast)).2
      simp only [Bool.and_eq_true, decide_eq_true_eq] at hmem
      exact hmem.1
    rw [← Option.some.inj h]
    split
    · exact hname
    · rename_i hbehind
      rw [ne_eq, ← String.toList_inj, String.toList_ofList]
      simpa using hbehind

/-- The module of a file has a usable identifier unless that is a lone underscore. -/
theorem usable_moduleIdent {f : FileDescriptor} (h : f.moduleIdent.word ≠ "_") :
    f.moduleIdent.IsUsable := by
  obtain ⟨name, hnonempty, hident⟩ : ∃ name : String, name ≠ "" ∧ f.moduleIdent = ⟨unreserved (undigited
      (String.ofList (name.toList.map fun c => if c.isAlphanum then c else '_'))), false⟩ := by
    refine ⟨_, ?_, rfl⟩
    split
    · cases hstem : fileStem? (f.name.getD "unknown") with
      | none => decide
      | some stem => exact fileStem?_ne_empty hstem
    · assumption
  rw [hident] at h ⊢
  generalize hword : String.ofList (name.toList.map fun c => if c.isAlphanum then c else '_') = word at h ⊢
  have hchars : ∀ c ∈ word.toList, isNameChar c := by
    rw [← hword, String.toList_ofList, List.forall_mem_map]
    intro c _
    split
    · rename_i hc
      rw [isNameChar, hc, Bool.true_or]
    · rfl
  have hempty : word ≠ "" := by
    rw [← hword, ne_eq, ← String.toList_inj, String.toList_ofList]
    simpa using hnonempty
  have hschema := Ident.isSchemaName_undigited hchars hempty
  rw [← Ident.ofText_unreserved hschema]
  refine (Ident.usable_unreserved hschema).2 fun heq => ?_
  rw [heq] at h
  exact h (by decide)

/-! ## The table -/

namespace NameTable

variable {ctx : FileContext} {scope : String} {module : List Ident} {t : NameTable}

theorem isCleanPath_runtimeTypes : ∀ e ∈ runtimeTypes, IsCleanPath e.2 := by
  have hclean : ∀ e ∈ runtimeTypes, (CodePath.parse? e.2).map Code.hasStrayWord = some false := by
    decide +kernel
  intro e he code hcode
  have hmap := hclean e he
  rw [hcode] at hmap
  exact Option.some.inj hmap

/-- The paths of the runtime library and those of the settings are clean. -/
theorem usable_pathOf (hpaths : ctx.settings.HasCleanPaths) {typeName : String} {ident : Ident}
    (hmodule : ∀ i ∈ module, i.IsUsable) (hident : ident.IsUsable) :
    (ctx.pathOf typeName module ident).IsUsable := by
  unfold FileContext.pathOf
  split
  · rename_i path hpath
    exact isCleanPath_runtimeTypes _ (mem_of_entryOf? hpath)
  split
  · rename_i path hpath
    exact hpaths typeName path hpath
  split
  · trivial
  · exact ⟨hmodule, hident⟩

theorem addMapEntries_passes (ht : t.IsUsable) (messages : List MessageDescriptor) :
    Passes IsUsable (addMapEntries scope messages t) := by
  refine passes_foldlM ht fun t ht m hm => ?_
  refine (passes_required m.name).bind fun name _ => ?_
  simp only
  split
  · split
    · exact { ht with types := List.forall_mem_cons.2 ⟨trivial, ht.types⟩ }
    · rfl
  · rfl

theorem addEnums_passes (hpaths : ctx.settings.HasCleanPaths) (hmodule : ∀ i ∈ module, i.IsUsable)
    {enums : List (EnumDescriptor × Ident)} (henums : ∀ p ∈ enums, p.1.HasUsableNames ∧ p.2.IsUsable)
    (ht : t.IsUsable) : Passes IsUsable (addEnums ctx scope module enums t) := by
  refine passes_foldlM ht ?_
  rintro t ht ⟨e, ident⟩ he
  obtain ⟨hnames, hident⟩ := henums _ he
  refine (passes_required e.name).bind fun name _ => ?_
  refine (enumNames_passes hnames hident).bind fun names hnamed => ?_
  exact {
    types := List.forall_mem_cons.2 ⟨usable_pathOf hpaths hmodule hident, ht.types⟩
    messages := ht.messages
    enums := List.forall_mem_cons.2 ⟨hnamed, ht.enums⟩ }

/-- The names of the messages and enums in a module. -/
theorem passes_names {α : Type} {name : α → Option String} {as : List α}
    (h : ∀ a ∈ as, ∀ word ∈ name a, isSchemaName word ∧ word ≠ "_") :
    Passes (fun words => ∀ word ∈ words, isSchemaName word ∧ word ≠ "_")
      (as.mapM (required <| name ·)) :=
  passes_mapM fun a ha => (passes_required (name a)).imp fun word hword => h a ha word hword

theorem addMessages_passes (hpaths : ctx.settings.HasCleanPaths) {ms : List MessageDescriptor}
    {idents : List MessageIdents} {scope : String} {module : List Ident} {t : NameTable}
    (hmodule : ∀ i ∈ module, i.IsUsable) (hms : ∀ m ∈ ms, m.HasUsableNames)
    (hidents : ∀ i ∈ idents, i.IsUsable) (ht : t.IsUsable) :
    Passes IsUsable (addMessages ctx ms idents scope module t) := by
  match ms, idents with
  | [], idents =>
    rw [addMessages_nil]
    exact ht
  | ⟨name, fields, nestedTypes, enumTypes, options, oneofs⟩ :: rest, idents =>
    rw [List.forall_mem_cons] at hms
    rw [addMessages_cons]
    split
    · exact addMessages_passes hpaths hmodule hms.2 hidents ht
    · match idents with
      | [] => exact ht
      | i :: idents =>
        rw [List.forall_mem_cons] at hidents
        obtain ⟨hi, hidents⟩ := hidents
        obtain ⟨hname, hfields, honeofs, henums, hnested⟩ := hms.1
        refine (passes_required name).bind fun word _ => ?_
        refine (passes_names fun m hm => ?_).bind fun names hnames => ?_
        · obtain ⟨hname, -, -, -, -⟩ := hnested m (List.mem_of_mem_filter hm)
          exact hname
        refine (passes_names fun e he => (henums e he).name).bind fun enumNames henumNames => ?_
        have hclaimed := usable_claimModule hnames henumNames {}
        generalize claimModule names enumNames {} = claim at hclaimed ⊢
        obtain ⟨claimed, innerScope⟩ := claim
        have hinner : ∀ j ∈ module ++ [i.module], j.IsUsable :=
          List.forall_mem_append.2 ⟨hmodule, List.forall_mem_singleton.2 hi.module⟩
        have hown : IsUsable { t with
            types := (scope ++ word, ⟨.message, ctx.pathOf (scope ++ word) module i.ident⟩) :: t.types } :=
          { ht with types := List.forall_mem_cons.2 ⟨usable_pathOf hpaths hmodule hi.ident, ht.types⟩ }
        refine (addMapEntries_passes hown nestedTypes).bind fun t ht => ?_
        refine (addEnums_passes hpaths hinner (fun p hp => ?_) ht).bind fun t ht => ?_
        · exact ⟨henums _ (List.of_mem_zip hp).1, hclaimed.2 _ (List.of_mem_zip hp).2⟩
        refine (addMessages_passes hpaths hinner hnested hclaimed.1 ht).bind fun t ht => ?_
        refine (messageNames_passes hms.1 hi innerScope).bind fun named hnamed => ?_
        exact addMessages_passes hpaths hmodule hms.2 hidents
          { ht with messages := List.forall_mem_cons.2 ⟨hnamed, ht.messages⟩ }

/-! ### Files -/

variable {settings : Settings}

theorem addFile_passes (hpaths : settings.HasCleanPaths) {f : FileDescriptor} (hf : f.HasUsableNames)
    (ht : t.IsUsable) (s : Scope) : Passes (fun r => IsUsable r.1) (addFile settings f s t) := by
  have hmodule : ∀ i ∈ [f.moduleIdent], i.IsUsable :=
    List.forall_mem_singleton.2 (usable_moduleIdent hf.module)
  refine (passes_required f.name).bind fun _ _ => ?_
  refine (passes_names fun m hm => ?_).bind fun names hnames => ?_
  · obtain ⟨hname, -, -, -, -⟩ := hf.messages m (List.mem_of_mem_filter hm)
    exact hname
  refine (passes_names fun e he => (hf.enums e he).name).bind fun enumNames henumNames => ?_
  have hclaimed := usable_claimModule hnames henumNames s
  generalize claimModule names enumNames s = claim at hclaimed ⊢
  obtain ⟨claimed, s⟩ := claim
  refine (addMapEntries_passes ht f.messageTypes).bind fun t ht => ?_
  refine (addEnums_passes hpaths hmodule (fun p hp => ?_) ht).bind fun t ht => ?_
  · exact ⟨hf.enums _ (List.of_mem_zip hp).1, hclaimed.2 _ (List.of_mem_zip hp).2⟩
  exact (addMessages_passes hpaths hmodule hf.messages hclaimed.1 ht).bind fun t ht => ht

theorem addFiles_passes (hpaths : settings.HasCleanPaths) {files : List FileDescriptor}
    (hfiles : ∀ f ∈ files, f.HasUsableNames) (scopes : List (Ident × Scope)) (ht : t.IsUsable) :
    Passes IsUsable (addFiles settings files scopes t) := by
  induction files generalizing scopes t with
  | nil => exact ht
  | cons f files ih =>
    rw [List.forall_mem_cons] at hfiles
    exact (addFile_passes hpaths hfiles.1 ht _).bind fun ⟨t, scope⟩ ht => ih hfiles.2 _ ht

/-- If all names of a schema give usable identifiers, then all identifiers of its table are
    usable, whichever scopes granted them. -/
theorem ofFiles_passes {s : DescriptorSet} (hpaths : settings.HasCleanPaths) (h : s.HasUsableNames) :
    Passes IsUsable (ofFiles settings s) := by
  refine Passes.bind (passes_forM ?_) fun _ _ => ?_
  · rintro ⟨protoPath, codePath⟩ -
    simp only
    split
    · trivial
    · rfl
  refine (addFiles_passes hpaths h [] ⟨by simp, by simp, by simp⟩).bind fun t ht => ?_
  exact ⟨ht.types, ht.messages, ht.enums⟩

end NameTable

end Protobuf
