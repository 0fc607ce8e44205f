import Mathlib.Data.List.Permutation
import Protobuf.Proofs.Names.Places

/-! # Identifiers never collide

Whatever the files of a schema declare, and however alike the names are, no two things that
stand side by side in generated code have one word for their identifier.

* `DescriptorSet.declaredMessages`, `declaredEnums`: what the files of a schema declare.
* `NameTable.moduleWords`: the words that a table has for what is declared in a module.
* `NameTable.FilesEntered`: the steps in which files are entered, and what follows from them.
* `NameTable.ofFiles_words`, `ofFiles_settles`: the words of modules and the names of messages.
* `NameTable.identifiers_distinct`: no two identifiers are alike.
-/

namespace Protobuf

def FileDescriptor.declaredMessages (f : FileDescriptor) : List (String × MessageDescriptor) :=
  nestedMessages f.scope f.messageTypes

def FileDescriptor.declaredEnums (f : FileDescriptor) : List (String × EnumDescriptor) :=
  enumsIn f.scope f.enumTypes ++ enumsInside f.declaredMessages

namespace DescriptorSet

def declaredMessages (s : DescriptorSet) : List (String × MessageDescriptor) :=
  s.files.flatMap (·.declaredMessages)

def declaredEnums (s : DescriptorSet) : List (String × EnumDescriptor) :=
  s.files.flatMap (·.declaredEnums)

/-- No two messages or enums have the same fully-qualified name. -/
def HasDistinctTypes (s : DescriptorSet) : Prop :=
  (s.declaredMessages.map (·.1) ++ s.declaredEnums.map (·.1)).Nodup

end DescriptorSet

namespace NameTable

/-! ## The words of a module -/

def messagesIn (scope : String) (messages : List MessageDescriptor) :
    List (String × MessageDescriptor) :=
  (messages.filter (!·.isMapEntry)).filterMap fun m => m.name.map fun name => (scope ++ name, m)

/-- The words that the table has for a message where it is declared: those of its struct, its
    partial struct and its module. -/
def messageWords (t : NameTable) (typeName : String) : List String :=
  ((entryOf? typeName t.messages).map (·.idents.words)).getD []

def enumWords (t : NameTable) (typeName : String) : List String :=
  ((entryOf? typeName t.enums).map fun names => [names.ident.word]).getD []

/-- The words that the table has for the messages and enums that a module declares. -/
def moduleWords (t : NameTable) (scope : String) (messages : List MessageDescriptor)
    (enums : List EnumDescriptor) : List String :=
  (enumsIn scope enums).flatMap (fun d => t.enumWords d.1) ++
    (messagesIn scope messages).flatMap fun d => t.messageWords d.1

/-- Nothing was entered under a name twice. -/
structure HasKeys (t : NameTable) : Prop where
  messages : (t.messages.map (·.1)).Nodup
  enums : (t.enums.map (·.1)).Nodup

variable {t t' : NameTable} {scope : String} {messages : List (MessageDescriptor × MessageIdents)}
  {enums : List (EnumDescriptor × Ident)}

theorem flatMap_enumWords (keys : t.HasKeys) (h : t.Declares scope messages enums) :
    (enumsIn scope (enums.map (·.1))).flatMap (fun d => t.enumWords d.1) =
      enums.map (·.2.word) := by
  replace h := h.enums
  induction enums with
  | nil => rfl
  | cons p enums ih =>
    rw [List.forall_mem_cons] at h
    obtain ⟨⟨name, names, hname, hmem, hident⟩, hrest⟩ := h
    rw [List.map_cons, enumsIn_cons hname, List.flatMap_cons, ih hrest, enumWords,
      entryOf?_of_mem keys.enums hmem, List.map_cons, ← hident]
    rfl

theorem flatMap_messageWords {ms : List MessageDescriptor} (keys : t.HasKeys)
    (h : t.Declares scope messages enums)
    (hmessages : messages.map (·.1) = ms.filter (!·.isMapEntry)) :
    (messagesIn scope ms).flatMap (fun d => t.messageWords d.1) =
      messages.flatMap (·.2.words) := by
  replace h := h.messages
  rw [messagesIn, ← hmessages]
  clear hmessages
  induction messages with
  | nil => rfl
  | cons p messages ih =>
    rw [List.forall_mem_cons] at h
    obtain ⟨⟨name, names, hname, hmem, hidents⟩, hrest⟩ := h
    rw [List.map_cons, List.filterMap_cons_some (b := (scope ++ name, p.1)) (by rw [hname]; rfl),
      List.flatMap_cons, ih hrest, List.flatMap_cons, messageWords,
      entryOf?_of_mem keys.messages hmem, ← hidents]
    rfl

/-- The table has for a module the words that the module claimed. -/
theorem moduleWords_eq {ms : List MessageDescriptor} {es : List EnumDescriptor} (keys : t.HasKeys)
    (h : t.Declares scope messages enums)
    (hmessages : messages.map (·.1) = ms.filter (!·.isMapEntry)) (henums : enums.map (·.1) = es) :
    t.moduleWords scope ms es = wordsOf messages enums := by
  rw [moduleWords, flatMap_messageWords keys h hmessages, ← henums, flatMap_enumWords keys h]
  rfl

/-! ## Files -/

/-- The words that are taken in a module of its own scope. -/
def takenIn (scopes : List (Ident × Scope)) (module : String) : List String :=
  ((entryOf? ⟨module, false⟩ scopes).getD {}).taken

/-- Files are entered one after another.  Each claims its words in the scope that the files
    before it left its module. -/
inductive FilesEntered : List FileDescriptor → List (Ident × Scope) → NameTable → NameTable → Prop
  | done {scopes t} : FilesEntered [] scopes t t
  | file {f files scopes scope messages enums ctx t t₁ t'}
      (hmessages : messages.map (·.1) = f.messageTypes.filter (!·.isMapEntry))
      (henums : enums.map (·.1) = f.enumTypes)
      (hclaimed : Scope.Grants ((entryOf? f.moduleIdent scopes).getD {}) scope
        (wordsOf messages enums))
      (entered : Entered ctx f.scope [f.moduleIdent] messages enums t t₁)
      (rest : FilesEntered files ((f.moduleIdent, scope) :: scopes) t₁ t') :
      FilesEntered (f :: files) scopes t t'

def contextOf (settings : Settings) (f : FileDescriptor) : FileContext :=
  ⟨settings, f.isWellKnown && !settings.emitWellKnownTypes⟩

/-- A file is entered as what is declared in its module. -/
theorem addFile_ok {settings : Settings} {f : FileDescriptor} {s s' : Scope}
    (h : addFile settings f s t = .ok (t', s')) : ∃ claimed,
      ModuleEntered (contextOf settings f) f.scope [f.moduleIdent] f.messageTypes f.enumTypes s s'
        claimed t t' := by
  obtain ⟨_, -, h⟩ := bind_eq_ok.1 h
  obtain ⟨names, hnames, h⟩ := bind_eq_ok.1 h
  obtain ⟨enumNames, henumNames, h⟩ := bind_eq_ok.1 h
  rcases hclaim : claimModule names enumNames s with ⟨claimed, scope⟩
  simp only [hclaim] at h
  obtain ⟨t₁, hentries, h⟩ := bind_eq_ok.1 h
  obtain ⟨t₂, henums, h⟩ := bind_eq_ok.1 h
  obtain ⟨t₃, hmessages, h⟩ := bind_eq_ok.1 h
  cases h
  exact ⟨claimed, .intro names enumNames hnames henumNames hclaim hentries henums hmessages⟩

theorem FilesEntered.of_addFiles {settings : Settings} {files : List FileDescriptor}
    {scopes : List (Ident × Scope)} (h : addFiles settings files scopes t = .ok t') :
    FilesEntered files scopes t t' := by
  induction files generalizing scopes t with
  | nil =>
    cases h
    exact .done
  | cons f files ih =>
    obtain ⟨⟨t₁, scope⟩, hfile, hrest⟩ := bind_eq_ok.1 h
    obtain ⟨claimed, inside⟩ := addFile_ok hfile
    obtain ⟨hmessagesLength, henumsLength⟩ := inside.length_claimed
    exact .file (List.map_fst_zip hmessagesLength.ge) (List.map_fst_zip henumsLength.ge)
      inside.grants inside.entered (ih hrest)

variable {files : List FileDescriptor} {scopes : List (Ident × Scope)}

theorem FilesEntered.grows (h : FilesEntered files scopes t t') : t.Grows t' := by
  induction h with
  | done => exact .refl _
  | file _ _ _ entered _ ih => exact entered.grows.trans ih

theorem FilesEntered.count_messages (h : FilesEntered files scopes t t') (typeName : String) :
    (t'.messages.map (·.1)).count typeName =
      ((files.flatMap (·.declaredMessages)).map (·.1)).count typeName +
        (t.messages.map (·.1)).count typeName := by
  induction h with
  | done => simp
  | file hmessages _ _ entered _ ih =>
    rw [ih, entered.count_messages, declaredIn_eq hmessages, ← FileDescriptor.declaredMessages,
      List.flatMap_cons, List.map_append, List.count_append]
    omega

theorem FilesEntered.count_enums (h : FilesEntered files scopes t t') (typeName : String) :
    (t'.enums.map (·.1)).count typeName =
      ((files.flatMap (·.declaredEnums)).map (·.1)).count typeName +
        (t.enums.map (·.1)).count typeName := by
  induction h with
  | done => simp
  | file hmessages henums _ entered _ ih =>
    rw [ih, entered.count_enums, declaredIn_eq hmessages, henums, ← FileDescriptor.declaredMessages,
      ← FileDescriptor.declaredEnums, List.flatMap_cons, List.map_append, List.count_append]
    omega

theorem FilesEntered.settled (h : FilesEntered files scopes t t') :
    ∀ e ∈ files.flatMap (·.declaredMessages), ∃ names nested inner,
      t'.Settled e.1 e.2 names nested inner := by
  induction h with
  | done => simp
  | file hmessages _ _ entered rest ih =>
    have hfile := entered.settled
    rw [declaredIn_eq hmessages] at hfile
    intro e he
    rcases List.mem_append.1 he with he | he
    · obtain ⟨names, nested, inner, hsettled⟩ := hfile e he
      exact ⟨names, nested, inner, hsettled.grow rest.grows⟩
    · exact ih e he

theorem FilesEntered.enums_distinct (h : FilesEntered files scopes t t') :
    ∀ d ∈ files.flatMap (·.declaredEnums), ∃ names, (d.1, names) ∈ t'.enums ∧ names.Distinct d.2 := by
  induction h with
  | done => simp
  | file hmessages henums _ entered rest ih =>
    have hfile := entered.enums_distinct
    rw [declaredIn_eq hmessages, henums] at hfile
    intro d hd
    rcases List.mem_append.1 hd with hd | hd
    · exact (hfile d hd).imp fun _ h => ⟨rest.grows.enums h.1, h.2⟩
    · exact ih d hd

theorem moduleIdent_eq_iff {f : FileDescriptor} {module : String} :
    f.moduleIdent = ⟨module, false⟩ ↔ f.moduleIdent.word = module := by
  have hraw : f.moduleIdent.raw = false := by rw [FileDescriptor.moduleIdent]
  generalize f.moduleIdent = i at hraw ⊢
  obtain ⟨word, raw⟩ := i
  simp [show raw = false from hraw]

theorem text_moduleIdent (f : FileDescriptor) : f.moduleIdent.text = f.moduleIdent.word := by
  rw [FileDescriptor.moduleIdent, Ident.text]
  rfl

theorem takenIn_moduleIdent (scopes : List (Ident × Scope)) (f : FileDescriptor) :
    takenIn scopes f.moduleIdent.word = ((entryOf? f.moduleIdent scopes).getD {}).taken := by
  rw [takenIn, ← moduleIdent_eq_iff.2 rfl]

theorem takenIn_cons (f : FileDescriptor) (scope : Scope) (module : String) :
    takenIn ((f.moduleIdent, scope) :: scopes) module =
      if f.moduleIdent.word = module then scope.taken else takenIn scopes module := by
  unfold takenIn
  simp only [entryOf?_cons, moduleIdent_eq_iff]
  split <;> rfl

/-- The words that files have in a module are new in it and no two of them are alike. -/
theorem FilesEntered.words (h : FilesEntered files scopes t t') (keys : t'.HasKeys)
    (module : String) :
    ((files.filter (·.moduleIdent.word = module)).flatMap fun f =>
        t'.moduleWords f.scope f.messageTypes f.enumTypes).Nodup ∧
      ∀ word ∈ (files.filter (·.moduleIdent.word = module)).flatMap fun f =>
        t'.moduleWords f.scope f.messageTypes f.enumTypes, word ∉ takenIn scopes module := by
  induction h with
  | done => simp
  | @file f _ scopes scope _ _ _ _ _ _ hmessages henums hclaimed entered rest ih =>
    obtain ⟨hnodup, hfresh⟩ := ih keys
    simp only [takenIn_cons] at hfresh
    by_cases hmodule : f.moduleIdent.word = module
    · rw [List.filter_cons_of_pos (by simpa using hmodule), List.flatMap_cons,
        moduleWords_eq keys (entered.declares.grow rest.grows) hmessages henums]
      have htaken : takenIn scopes module = ((entryOf? f.moduleIdent scopes).getD {}).taken := by
        rw [← hmodule, takenIn_moduleIdent]
      simp only [if_pos hmodule, hclaimed.taken, not_or] at hfresh
      refine ⟨List.nodup_append'.2 ⟨hclaimed.nodup, hnodup, fun w hw hw' => (hfresh w hw').1 hw⟩, ?_⟩
      intro w hw
      rw [htaken]
      rcases List.mem_append.1 hw with hw | hw
      · exact hclaimed.fresh w hw
      · exact (hfresh w hw).2
    · rw [List.filter_cons_of_neg (by simpa using hmodule)]
      simp only [if_neg hmodule] at hfresh
      exact ⟨hnodup, hfresh⟩

def Vacant (scopes : List (Ident × Scope)) (path : List String) : Prop :=
  ∃ module word, [module, word] <+: path ∧ word ∉ takenIn scopes module

/-- The types of files are placed under words that were not taken. -/
theorem FilesEntered.placed (h : FilesEntered files scopes t t') :
    ∃ types, t'.types = types ++ t.types ∧ Placed (Vacant scopes) types := by
  induction h with
  | done => exact ⟨[], rfl, .nil⟩
  | @file f _ scopes scope messages enums _ _ _ _ _ _ hclaimed entered _ ih =>
    obtain ⟨types, htypes, hplaced⟩ := entered.placed hclaimed.nodup
    obtain ⟨types', htypes', hplaced'⟩ := ih
    refine ⟨types' ++ types, by rw [htypes', htypes, List.append_assoc],
      (hplaced'.append hplaced ?_).mono ?_⟩
    · -- What this file claimed is taken when the files after it are entered.
      rintro path ⟨module, word, hprefix, hvacant⟩ ⟨word', hword', hprefix'⟩
      have heq := (List.prefix_of_prefix_length_le hprefix hprefix' (by simp)).eq_of_length (by simp)
      obtain ⟨rfl, rfl⟩ : module = f.moduleIdent.word ∧ word = word' := by simpa using heq
      rw [takenIn_cons, if_pos rfl, hclaimed.taken] at hvacant
      exact hvacant (.inl hword')
    · rintro path (⟨module, word, hprefix, hvacant⟩ | ⟨word, hword, hprefix⟩)
      · refine ⟨module, word, hprefix, fun htaken => hvacant ?_⟩
        rw [takenIn_cons]
        split
        · rename_i hmodule
          rw [← hmodule, takenIn_moduleIdent] at htaken
          exact (hclaimed.taken word).2 (.inr htaken)
        · exact htaken
      · exact ⟨f.moduleIdent.word, word, hprefix,
          takenIn_moduleIdent scopes f ▸ hclaimed.fresh word hword⟩

/-! ## No two alike -/

theorem hasKeys_of_filesEntered {s : DescriptorSet} (h : FilesEntered s.files [] {} t)
    (distinct : s.HasDistinctTypes) : t.HasKeys := by
  obtain ⟨hmessages, henums, -⟩ := List.nodup_append'.1 distinct
  refine ⟨List.nodup_iff_count_le_one.2 fun typeName => ?_,
    List.nodup_iff_count_le_one.2 fun typeName => ?_⟩
  · rw [h.count_messages]
    exact List.nodup_iff_count_le_one.1 hmessages typeName
  · rw [h.count_enums]
    exact List.nodup_iff_count_le_one.1 henums typeName

section

variable {settings : Settings} {s : DescriptorSet}

/-- The table of a schema is that of its files, with the boxed fields noted in it. -/
theorem ofFiles_ok (h : ofFiles settings s = .ok t) :
    ∃ t₁, addFiles settings s.files [] {} = .ok t₁ ∧ t = { t₁ with boxed := s.boxedFields } := by
  obtain ⟨_, -, h⟩ := bind_eq_ok.1 h
  obtain ⟨t₁, hfiles, h⟩ := bind_eq_ok.1 h
  cases h
  exact ⟨t₁, hfiles, rfl⟩

/-- No two words are alike that the files of a module have in it. -/
theorem ofFiles_words (h : ofFiles settings s = .ok t) (distinct : s.HasDistinctTypes)
    (module : String) :
    ((s.files.filter (·.moduleIdent.word = module)).flatMap fun f =>
      t.moduleWords f.scope f.messageTypes f.enumTypes).Nodup := by
  obtain ⟨t, hfiles, rfl⟩ := ofFiles_ok h
  have entered := FilesEntered.of_addFiles hfiles
  exact (entered.words (hasKeys_of_filesEntered entered distinct) module).1

/-- A message has names that tell apart its oneofs and all that is declared inside it. -/
def Settles (t : NameTable) (e : String × MessageDescriptor) : Prop :=
  ∃ names, entryOf? e.1 t.messages = some names ∧ names.Distinct e.2 ∧
    (t.moduleWords (e.1 ++ ".") e.2.nestedTypes e.2.enumTypes ++
      names.oneofs.map (·.2.ident.word)).Nodup

theorem ofFiles_settles (h : ofFiles settings s = .ok t) (distinct : s.HasDistinctTypes) :
    ∀ e ∈ s.declaredMessages, t.Settles e := by
  obtain ⟨t, hfiles, rfl⟩ := ofFiles_ok h
  have entered := FilesEntered.of_addFiles hfiles
  have keys := hasKeys_of_filesEntered entered distinct
  intro e he
  obtain ⟨names, nested, inner, hsettled⟩ := entered.settled e he
  have hwords := moduleWords_eq keys hsettled.declares hsettled.messages hsettled.enums
  exact ⟨names, entryOf?_of_mem keys.messages hsettled.entry, hsettled.distinct,
    hwords.symm ▸ hsettled.words⟩

end

/-- If a schema in which no two messages or enums have one name is given a table, then no two
    identifiers are alike, raw form apart: in each module of files, whichever files share it,
    those of the messages, their partial structs and modules, and of the enums; in the module
    of each message these and those of its oneofs; in each message those of its fields and
    oneofs; in each oneof those of its variants; and in each enum those of values with
    different numbers.  So types with different names are not generated in one place. -/
theorem identifiers_distinct {settings : Settings} {s : DescriptorSet} {t : NameTable}
    (h : ofFiles settings s = .ok t) (distinct : s.HasDistinctTypes) :
    (∀ module, ((s.files.filter (·.moduleIdent.word = module)).flatMap fun f =>
        t.moduleWords f.scope f.messageTypes f.enumTypes).Nodup) ∧
      (∀ typeName m, (typeName, m) ∈ s.declaredMessages → ∃ names,
        entryOf? typeName t.messages = some names ∧ names.Distinct m ∧
          (t.moduleWords (typeName ++ ".") m.nestedTypes m.enumTypes ++
            names.oneofs.map (·.2.ident.word)).Nodup) ∧
      (∀ typeName e, (typeName, e) ∈ s.declaredEnums → ∃ names,
        entryOf? typeName t.enums = some names ∧ names.Distinct e) ∧
      ∀ typeName typeName' info info' path, entryOf? typeName t.types = some info →
        entryOf? typeName' t.types = some info' → info.path.words? = some path →
          info'.path.words? = some path → typeName = typeName' := by
  refine ⟨ofFiles_words h distinct, fun typeName m hm => ofFiles_settles h distinct _ hm, ?_⟩
  obtain ⟨t, hfiles, rfl⟩ := ofFiles_ok h
  have entered := FilesEntered.of_addFiles hfiles
  have keys := hasKeys_of_filesEntered entered distinct
  constructor
  · intro typeName e he
    obtain ⟨names, hmem, hdistinct⟩ := entered.enums_distinct _ he
    exact ⟨names, entryOf?_of_mem keys.enums hmem, hdistinct⟩
  · intro typeName typeName' info info' path hinfo hinfo' hpath hpath'
    obtain ⟨types, htypes, hplaced⟩ := entered.placed
    have htypes : t.types = types := htypes.trans (List.append_nil _)
    rw [← htypes] at hplaced
    exact hplaced.unique _ (mem_of_entryOf? hinfo) _ (mem_of_entryOf? hinfo') path hpath hpath'

def boolField (name : String) (number : Int32) : FieldDescriptor :=
  { name := some name, number := some number, type := some (FieldKind.scalar .bool).code }

/-- Two files of a package in which names come close: a message and the partial struct of
    another, an enum and the module of a message, a oneof and what is declared beside it,
    fields that differ in letter case only, and values of an enum that do, one an alias. -/
def hatShop : DescriptorSet :=
  { files :=
      [ { name := some "hats.proto"
          package := some "shop"
          messageTypes :=
            [ { name := some "Hat"
                fields :=
                  [ boolField "fooBar" 1, boolField "foo_bar" 2,
                    { boolField "small" 3 with oneofIndex := some 0 } ]
                nestedTypes := [{ name := some "Inner" }]
                oneofs := [{ name := some "inner" }] } ] },
        { name := some "more.proto"
          package := some "shop"
          messageTypes := [{ name := some "HatPartial" }]
          enumTypes :=
            [ { name := some "hat"
                values := [⟨some "FELT", some 0⟩, ⟨some "WOOL", some 0⟩, ⟨some "felt", some 1⟩] } ] } ] }

theorem isOk_ofFiles_hatShop : (ofFiles {} hatShop).isOk = true := by
  unfold hatShop
  simp only [ofFiles, addFiles, addFile, addMessages_cons, addMessages_nil]
  decide +kernel

theorem distinct_hatShop : hatShop.HasDistinctTypes := by
  have hmessages : hatShop.declaredMessages.map (·.1) =
      [".shop.Hat", ".shop.Hat.Inner", ".shop.HatPartial"] := by cbv
  have henums : hatShop.declaredEnums.map (·.1) = [".shop.hat"] := by cbv
  rw [DescriptorSet.HasDistinctTypes, hmessages, henums]
  decide

theorem identifiers_distinct_hatShop : ∃ t, ofFiles {} hatShop = .ok t ∧ hatShop.HasDistinctTypes ∧
    ((hatShop.files.filter (·.moduleIdent.word = "shop")).flatMap fun f =>
      t.moduleWords f.scope f.messageTypes f.enumTypes).Nodup := by
  have hok := isOk_ofFiles_hatShop
  cases h : ofFiles {} hatShop with
  | error e =>
    rw [h] at hok
    cases hok
  | ok t => exact ⟨t, rfl, distinct_hatShop, (identifiers_distinct h distinct_hatShop).1 "shop"⟩

end NameTable

end Protobuf
