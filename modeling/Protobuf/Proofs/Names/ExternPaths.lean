import Protobuf.Proofs.Names.Entries
import Protobuf.Proofs.Names.PathsBelow

/-! # A package that is found elsewhere

If the settings say that the types of a package are found elsewhere, their paths are made of
their names alone.  These are the paths at which a program that generates the package declares
them, as long as its scopes granted all names on the way what they ask for.

* `Declared`: a type that messages and enums declare, by the names on the way to it.
* `NameTable.Uncontested`: nothing else has the words that the names on the way ask for.
* `NameTable.exists_site_of_declared`: the site of a declared type.
* `NameTable.ofFiles_declared`: what the table has for a declared type.
* `NameTable.externPath_agrees_iff`: a type in the tables without and with the path of its package.
-/

namespace Protobuf

/-- A type that some messages and enums declare, map entries apart, by the names on the way
    to it. -/
inductive Declared : List MessageDescriptor → List EnumDescriptor → TypeKind → List String → Prop
  | enum {messages enums e name} (he : e ∈ enums) (hname : e.name = some name) :
      Declared messages enums .enumeration [name]
  | message {messages enums m name} (hm : m ∈ messages) (hentry : m.isMapEntry = false)
      (hname : m.name = some name) : Declared messages enums .message [name]
  | inside {messages enums m name kind names} (hm : m ∈ messages) (hentry : m.isMapEntry = false)
      (hname : m.name = some name) (inner : Declared m.nestedTypes m.enumTypes kind names) :
      Declared messages enums kind (name :: names)

section

variable {messages : List MessageDescriptor} {enums : List EnumDescriptor} {kind : TypeKind}
  {names : List String} {scope name : String} {m : MessageDescriptor}

theorem Declared.ne_nil (h : Declared messages enums kind names) : names ≠ [] := by
  cases h <;> exact List.cons_ne_nil _ _

namespace NameTable

variable {t : NameTable}

theorem messageSites_subset_nestedSites (t : NameTable) (scope : String) (module : List Ident)
    (hm : m ∈ messages) (hentry : m.isMapEntry = false) :
    t.messageSites scope module m ⊆ t.nestedSites scope module messages := by
  intro site hsite
  rw [nestedSites_eq, List.mem_flatMap]
  exact ⟨m, List.mem_filter.2 ⟨hm, by simp [hentry]⟩, hsite⟩

def wordOf? (t : NameTable) (typeName : String) : TypeKind → Option String
  | .message => (entryOf? typeName t.messages).map (·.ident.word)
  | .enumeration => (entryOf? typeName t.enums).map (·.ident.word)
  | .mapEntry => none

/-- The names on the way to a type ask for words that nothing else has in the module: where one
    is among the `words` of the module, it was granted to that name. -/
def Uncontested (t : NameTable) (kind : TypeKind) :
    (words : List String) → (scope : String) → List MessageDescriptor → (names : List String) → Prop
  | _, _, _, [] => True
  | words, scope, _, [name] =>
    (Ident.ofType name).word ∈ words → t.wordOf? (scope ++ name) kind = some (Ident.ofType name).word
  | words, scope, messages, name :: rest =>
    ((Ident.ofModule name).word ∈ words →
      (entryOf? (scope ++ name) t.messages).map (·.module.word) = some (Ident.ofModule name).word) ∧
    ∀ m ∈ messages, m.isMapEntry = false → m.name = some name →
      t.Uncontested kind (t.moduleWords (scope ++ name ++ ".") m.nestedTypes m.enumTypes)
        (scope ++ name ++ ".") m.nestedTypes rest

variable {ctx : FileContext} {module : List Ident} {t₀ t₁ : NameTable} {s s' : Scope}
  {claimed : ModuleIdents}

/-- What the table has for a message of a module, and the sites of the message and of what is
    declared inside it. -/
theorem ModuleEntered.sites_of_mem
    (inside : ModuleEntered ctx scope module messages enums s s' claimed t₀ t₁) (keys : t.HasKeys)
    (grows : t₁.Grows t) (hm : m ∈ messages) (hentry : m.isMapEntry = false)
    (hname : m.name = some name) :
    ∃ names inner claimed' t₂ t₃, entryOf? (scope ++ name) t.messages = some names ∧
      names.idents.StemsFrom s'.taken name ∧
      ModuleEntered ctx (scope ++ name ++ ".") (module ++ [names.module]) m.nestedTypes m.enumTypes {}
        inner claimed' t₂ t₃ ∧ t₃.Grows t ∧
      { typeName := scope ++ name, kind := .message, module, ident := names.ident,
        partialIdent := some names.partialIdent } ∈ t.nestedSites scope module messages ∧
      t.enumSites (scope ++ name ++ ".") (module ++ [names.module]) m.enumTypes ++
          t.nestedSites (scope ++ name ++ ".") (module ++ [names.module]) m.nestedTypes ⊆
        t.nestedSites scope module messages := by
  obtain ⟨name', names, inner, claimed', t₂, t₃, hname', hmem, hstems, within, grows'⟩ :=
    inside.message_of_mem hm hentry
  cases hname.symm.trans hname'
  have hfound := entryOf?_of_mem keys.messages (grows.messages hmem)
  have hsites := messageSites_subset_nestedSites t scope module hm hentry
  rw [messageSites_eq hname hfound, List.cons_subset] at hsites
  exact ⟨names, inner, claimed', t₂, t₃, hfound, hstems, within, grows'.trans grows, hsites⟩

/-- A declared type has a site, where each name on the way was granted an identifier: the one that
    it asks for, if nothing else has it. -/
theorem exists_site_of_declared (h : Declared messages enums kind names) (keys : t.HasKeys)
    (inside : ModuleEntered ctx scope module messages enums s s' claimed t₀ t₁) (grows : t₁.Grows t) :
    ∃ site ∈ t.enumSites scope module enums ++ t.nestedSites scope module messages,
      site.typeName = scope ++ ".".intercalate names ∧ site.kind = kind ∧
        ∃ modules, site.module = module ++ modules ∧
          List.Forall₂ Ident.Yields (nameWishes names) (modules ++ [site.ident]) ∧
          ∀ words, s'.taken ⊆ words → t.Uncontested kind words scope messages names →
            modules ++ [site.ident] = nameWishes names := by
  induction h generalizing scope module t₀ t₁ s s' claimed with
  | @enum messages enums e name he hname =>
    obtain ⟨name', entry, hname', hmem, hbecomes⟩ := inside.enum_of_mem he
    cases hname.symm.trans hname'
    have hfound := entryOf?_of_mem keys.enums (grows.enums hmem)
    have hdeclared : (scope ++ name, e) ∈ enumsIn scope enums :=
      List.mem_filterMap.2 ⟨e, he, by rw [hname]; rfl⟩
    have hsite : { typeName := scope ++ name, kind := .enumeration, module, ident := entry.ident } ∈
        t.enumSites scope module enums :=
      List.mem_filterMap.2 ⟨_, hdeclared, by rw [hfound]; rfl⟩
    refine ⟨_, List.mem_append_left _ hsite, by rw [String.intercalate_singleton], rfl, [],
      (List.append_nil _).symm, .cons hbecomes.yields .nil, fun words subset uncontested => ?_⟩
    have hkept : entry.ident = Ident.ofType name := hbecomes.eq_of_kept fun htaken => by
      simpa [wordOf?, hfound] using uncontested (subset htaken)
    rw [hkept]
    rfl
  | @message messages enums m name hm hentry hname =>
    obtain ⟨entry, _, _, _, _, hfound, hstems, -, -, hsite, -⟩ :=
      inside.sites_of_mem keys grows hm hentry hname
    refine ⟨_, List.mem_append_right _ hsite, by rw [String.intercalate_singleton], rfl, [],
      (List.append_nil _).symm, .cons hstems.ident.yields .nil, fun words subset uncontested => ?_⟩
    have hkept : entry.ident = Ident.ofType name := hstems.ident.eq_of_kept fun htaken => by
      simpa [wordOf?, hfound, MessageNames.idents] using uncontested (subset htaken)
    simp only [hkept]
    rfl
  | @inside messages enums m name kind names hm hentry hname inner ih =>
    obtain ⟨entry, _, _, _, _, hfound, hstems, within, grows', -, hsites⟩ :=
      inside.sites_of_mem keys grows hm hentry hname
    -- What is inside the message has its sites in the module of the message.
    obtain ⟨site, hsite, htype, hkind, modules, hmodule, hyields, hgranted⟩ := ih within grows'
    obtain ⟨first, rest, rfl⟩ := List.exists_cons_of_ne_nil inner.ne_nil
    refine ⟨site, List.mem_append_right _ (hsites hsite), ?_, hkind, entry.module :: modules, ?_,
      .cons hstems.module.yields hyields, ?_⟩
    · rw [htype, String.intercalate_cons_of_ne_nil (List.cons_ne_nil _ _)]
      simp only [String.append_assoc]
    · rw [hmodule, List.append_assoc, List.singleton_append]
    · rintro words subset ⟨hown, hinside⟩
      have hkept : entry.module = Ident.ofModule name := hstems.module.eq_of_kept fun htaken => by
        simpa [hfound, MessageNames.idents] using hown (subset htaken)
      have htaken := within.taken_subset keys grows'
      rw [List.append_nil] at htaken
      rw [List.cons_append, hgranted _ htaken (hinside m hm hentry hname), hkept]
      rfl

variable {settings : Settings} {s : DescriptorSet} {f : FileDescriptor}

/-- A declared type has an entry, with its path under the identifiers granted on the way. -/
theorem ofFiles_declared (h : ofFiles settings s = .ok t) (distinct : s.HasDistinctDeclarations)
    (hf : f ∈ s.files) (hdeclared : Declared f.messageTypes f.enumTypes kind names) :
    ∃ modules ident, List.Forall₂ Ident.Yields (nameWishes names) (modules ++ [ident]) ∧
      (t.Uncontested kind (t.wordsIn s.files f.moduleIdent.word) f.scope f.messageTypes names →
        modules ++ [ident] = nameWishes names) ∧
      entryOf? (f.scope ++ ".".intercalate names) t.types =
        some ⟨kind, (contextOf settings f).pathOf (f.scope ++ ".".intercalate names)
          (f.moduleIdent :: modules) ident⟩ := by
  obtain ⟨t₁, hfiles, ht⟩ := ofFiles_ok h
  have keys := hasKeys_of_filesEntered (FilesEntered.of_addFiles hfiles) distinct.types
  have keys : t.HasKeys := ht ▸ ⟨keys.messages, keys.enums⟩
  obtain ⟨_, _, _, _, _, inside, grows, htaken⟩ := exists_moduleEntered h distinct.types hf
  obtain ⟨site, hsite, htype, hkind, modules, hmodule, hyields, hgranted⟩ :=
    exists_site_of_declared hdeclared keys inside grows
  have hentry := ofFiles_entry h distinct hf hsite
  rw [htype, hkind, hmodule] at hentry
  exact ⟨modules, site.ident, hyields, hgranted _ htaken, hentry⟩

/-! ## With a path and without -/

/-- The path of a type that the runtime library does not have, in a file that code is generated
    for. -/
theorem pathOf_of_generates {ctx : FileContext} {typeName : String} (generates : ctx.suppressed = false)
    (hruntime : entryOf? typeName runtimeTypes = none) (module : List Ident) (ident : Ident) :
    ctx.pathOf typeName module ident =
      ((externPath? ctx.settings.externPaths typeName).map TypePath.external).getD
        (.generated module ident) := by
  rw [FileContext.pathOf, hruntime]
  cases externPath? ctx.settings.externPaths typeName <;> simp [generates]

/-- A package that has names, no two alike, is entered in two tables: one in which its code is
    generated, and one in which its types are below a path of the settings.  A type that the
    runtime library has is found there by both.  Any other has, in the second, the path that the
    parts of its name give.  That is its path in the first, seen from the module of the package,
    exactly if no name on the way has a dot in it and each was granted what it asks for; and it was
    granted that if nothing else in the same module has it. -/
theorem externPath_agrees_iff {t t' : NameTable} {package root : String}
    (distinct : s.HasDistinctDeclarations) (hpackage : package ≠ "") (hwell : package ≠ wellKnownPackage)
    (h : ofFiles { settings with externPaths := [] } s = .ok t)
    (h' : ofFiles { settings with externPaths := [("." ++ package, root)] } s = .ok t')
    (hf : f ∈ s.files) (hfile : f.packageName = package)
    (hdeclared : Declared f.messageTypes f.enumTypes kind names) :
    (∃ path, entryOf? (f.scope ++ ".".intercalate names) runtimeTypes = some path ∧
      entryOf? (f.scope ++ ".".intercalate names) t.types = some ⟨kind, .external path⟩ ∧
      entryOf? (f.scope ++ ".".intercalate names) t'.types = some ⟨kind, .external path⟩) ∨
    ∃ modules ident path,
      entryOf? (f.scope ++ ".".intercalate names) t.types =
        some ⟨kind, .generated (f.moduleIdent :: modules) ident⟩ ∧
      entryOf? (f.scope ++ ".".intercalate names) t'.types = some ⟨kind, .external path⟩ ∧
      path = pathBelow root (nameWishes (splitText '.' (".".intercalate names))) ∧
      (path = pathBelow root (modules ++ [ident]) ↔
        (∀ name ∈ names, '.' ∉ name.toList) ∧ modules ++ [ident] = nameWishes names) ∧
      ((∀ name ∈ names, '.' ∉ name.toList) →
        t.Uncontested kind (t.wordsIn s.files f.moduleIdent.word) f.scope f.messageTypes names →
          path = pathBelow root (modules ++ [ident])) := by
  obtain ⟨modules, ident, hyields, hgranted, hentry⟩ := ofFiles_declared h distinct hf hdeclared
  obtain ⟨modules', ident', -, -, hentry'⟩ := ofFiles_declared h' distinct hf hdeclared
  have hscope : f.scope = "." ++ package ++ "." := by rw [FileDescriptor.scope, hfile, if_neg hpackage]
  have generates : ∀ settings, (contextOf settings f).suppressed = false := by
    intro settings
    simp [contextOf, FileDescriptor.isWellKnown, hfile, hwell]
  cases hruntime : entryOf? (f.scope ++ ".".intercalate names) runtimeTypes with
  | some path =>
    refine .inl ⟨path, rfl, ?_, ?_⟩
    · rw [hentry, FileContext.pathOf, hruntime]
    · rw [hentry', FileContext.pathOf, hruntime]
  | none =>
    rw [pathOf_of_generates (generates _) hruntime] at hentry hentry'
    have hnone : externPath? [] (f.scope ++ ".".intercalate names) = none := externPath?_nil _
    have hsome := externPath?_below package root (".".intercalate names)
    rw [← hscope, belowPath_eq] at hsome
    have hagrees : pathBelow root _ = pathBelow root (modules ++ [ident]) ↔ _ :=
      pathBelow_eq_iff hdeclared.ne_nil hyields
    refine .inr ⟨modules, ident, _, ?_, ?_, rfl, hagrees,
      fun hdots uncontested => hagrees.2 ⟨hdots, hgranted uncontested⟩⟩
    · rw [hentry]
      simp only [contextOf, hnone, Option.map_none, Option.getD_none]
    · rw [hentry']
      simp only [contextOf, hsome, Option.map_some, Option.getD_some]

theorem distinctDeclarations_hatShop : hatShop.HasDistinctDeclarations := by
  have hmessages : hatShop.allMessages.map (·.1) =
      [".shop.Hat", ".shop.Hat.Inner", ".shop.HatPartial"] := by cbv
  have henums : hatShop.allEnums.map (·.1) = [".shop.hat"] := by cbv
  rw [DescriptorSet.HasDistinctDeclarations, hmessages, henums]
  decide

theorem generated_hatShop : ∃ t, ofFiles {} hatShop = .ok t ∧
    entryOf? ".shop.hat" t.types = some ⟨.enumeration, .generated [⟨"shop", false⟩] ⟨"hat_", false⟩⟩ ∧
    (entryOf? ".shop.Hat" t.messages).map (·.module.word) = some "hat" ∧
    t.wordOf? ".shop.Hat.Inner" .message = some "Inner" := by
  have hfound : (ofFiles {} hatShop >>= fun t => .ok
      (entryOf? ".shop.hat" t.types, (entryOf? ".shop.Hat" t.messages).map (·.module.word),
        t.wordOf? ".shop.Hat.Inner" .message)) =
      .ok (some ⟨.enumeration, .generated [⟨"shop", false⟩] ⟨"hat_", false⟩⟩, some "hat",
        some "Inner") := by
    unfold hatShop
    simp only [ofFiles, addFiles, addFile, addMessages_cons, addMessages_nil]
    decide +kernel
  obtain ⟨t, ht, hentries⟩ := bind_eq_ok.1 hfound
  simp only [Except.ok.injEq, Prod.mk.injEq] at hentries
  exact ⟨t, ht, hentries⟩

theorem external_hatShop : ∃ t, ofFiles { externPaths := [(".shop", "::hats")] } hatShop = .ok t ∧
    entryOf? ".shop.hat" t.types = some ⟨.enumeration, .external "::hats::hat"⟩ := by
  have hfound : (ofFiles { externPaths := [(".shop", "::hats")] } hatShop >>= fun t =>
      .ok (entryOf? ".shop.hat" t.types)) = .ok (some ⟨.enumeration, .external "::hats::hat"⟩) := by
    unfold hatShop
    simp only [ofFiles, addFiles, addFile, addMessages_cons, addMessages_nil]
    decide +kernel
  obtain ⟨t, ht, hentry⟩ := bind_eq_ok.1 hfound
  exact ⟨t, ht, Except.ok.inj hentry⟩

/-- A message inside another.  Nothing else has the words that the names on the way ask for. -/
theorem externPath_agrees_inner : ∃ t t' : NameTable, ofFiles {} hatShop = .ok t ∧
    ofFiles { externPaths := [(".shop", "::hats")] } hatShop = .ok t' ∧
    ∃ modules ident,
      entryOf? ".shop.Hat.Inner" t.types = some ⟨.message, .generated (⟨"shop", false⟩ :: modules) ident⟩ ∧
      entryOf? ".shop.Hat.Inner" t'.types = some ⟨.message, .external "::hats::hat::Inner"⟩ ∧
      "::hats::hat::Inner" = pathBelow "::hats" (modules ++ [ident]) := by
  obtain ⟨t, ht, -, hhat, hinner⟩ := generated_hatShop
  obtain ⟨t', ht', -⟩ := external_hatShop
  refine ⟨t, t', ht, ht', ?_⟩
  have hfile : ∃ f ∈ hatShop.files, f.packageName = "shop" ∧ f.moduleIdent = ⟨"shop", false⟩ ∧
      f.scope = ".shop." ∧ Declared f.messageTypes f.enumTypes .message ["Hat", "Inner"] :=
    ⟨_, List.mem_cons_self, rfl, by decide +kernel, by decide +kernel,
      .inside List.mem_cons_self rfl rfl (.message List.mem_cons_self rfl rfl)⟩
  obtain ⟨f, hf, hpackage, hmodule, hscope, hdeclared⟩ := hfile
  have hbare : ofFiles { ({} : Settings) with externPaths := [] } hatShop = .ok t := ht
  have hbelow : ofFiles { ({} : Settings) with externPaths := [("." ++ "shop", "::hats")] } hatShop =
      .ok t' := ht'
  have uncontested : ∀ words messages, t.Uncontested .message words ".shop." messages ["Hat", "Inner"] :=
    fun _ _ => ⟨fun _ => hhat.trans (by decide +kernel), fun _ _ _ _ _ => hinner.trans (by decide +kernel)⟩
  have hagrees := externPath_agrees_iff distinctDeclarations_hatShop (by decide) (by decide) hbare hbelow
    hf hpackage hdeclared
  have hname : ".shop." ++ ".".intercalate ["Hat", "Inner"] = ".shop.Hat.Inner" := by decide +kernel
  rw [hscope, hmodule, hname] at hagrees
  rcases hagrees with ⟨path, hruntime, -⟩ | ⟨modules, ident, path, hgenerated, hexternal, hpath, -, hagree⟩
  · cases hruntime
  · obtain rfl : path = "::hats::hat::Inner" := hpath.trans (by decide +kernel)
    exact ⟨modules, ident, hgenerated, hexternal, hagree (by decide) (uncontested _ _)⟩

/-- The module of a message and an enum ask for the same identifier.  The message comes first and
    has it; yet the path of the enum, if the package is found elsewhere, is made as if the enum
    had it. -/
theorem externPath_differs : hatShop.HasDistinctDeclarations ∧ ∃ t t' : NameTable,
    ofFiles {} hatShop = .ok t ∧ ofFiles { externPaths := [(".shop", "::hats")] } hatShop = .ok t' ∧
    entryOf? ".shop.hat" t.types =
      some ⟨.enumeration, .generated [⟨"shop", false⟩] ⟨"hat_", false⟩⟩ ∧
    entryOf? ".shop.hat" t'.types = some ⟨.enumeration, .external "::hats::hat"⟩ ∧
    "::hats::hat" ≠ pathBelow "::hats" [⟨"hat_", false⟩] := by
  obtain ⟨t, ht, hgenerated, -⟩ := generated_hatShop
  obtain ⟨t', ht', hexternal⟩ := external_hatShop
  exact ⟨distinctDeclarations_hatShop, t, t', ht, ht', hgenerated, hexternal, by decide⟩

end NameTable

end

end Protobuf
