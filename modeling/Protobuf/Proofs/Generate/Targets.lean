import Protobuf.Proofs.Generate.Contents
import Protobuf.Proofs.Generate.Layout
import Protobuf.Proofs.Names.Wishes

/-! # Targets

The file of a module is made of the files that share the module and are asked for.  What else is
asked for decides which modules there are, and nothing in the file of any of them.

* `moduleCodes`, `moduleFiles_eq`: the files of modules and the code in them.
* `DescriptorSet.generateFormatted`: what is generated if a formatter lays the code out.
* `NameTable.itemsIn`, `NameTable.sorts_generatedModules`: the items of a module, in order.
* `DescriptorSet.Lists`: which files a run makes.
* `DescriptorSet.generateFormatted_targets`: what two runs make, with different targets.
-/

namespace Protobuf

def declarationCode (name : String) : Code :=
  .sequence
    [ "# [allow (clippy :: all , dead_code , non_camel_case_types , non_snake_case ,",
      "unused_variables)] pub mod",
      (⟨name, false⟩ : Ident),
      .braces ["include !", .parens [.literal (name ++ ".rs")], ";"] ]

theorem moduleDeclaration_eq {name : String} {code : Code} (h : moduleDeclaration name = .ok code) :
    code = declarationCode name := by
  obtain ⟨ident, hident, h⟩ := bind_eq_ok.1 h
  cases h
  rw [Ident.checked_eq hident, declarationCode]

theorem generatedFile_eq {name : String} {code : Code} {file : GeneratedFile}
    (h : generatedFile name code = .ok file) : file = ⟨name, header ++ code.render⟩ := by
  unfold generatedFile at h
  split at h
  · cases h
  · exact (Except.ok.inj h).symm

def moduleCodes (modules : List (String × List Item)) : List (String × Code) :=
  modules.map (fun e => (e.1 ++ ".rs", .sequence (itemsCode e.2))) ++
    [("mod.rs", .sequence (modules.map fun e => declarationCode e.1))]

/-- The files of modules, with code that is written in some way. -/
def writtenFiles (write : Code → String) (modules : List (String × List Item)) :
    List GeneratedFile :=
  (moduleCodes modules).map fun p => ⟨p.1, header ++ write p.2⟩

theorem moduleFiles_eq {modules : List (String × List Item)} {files : List GeneratedFile}
    (h : moduleFiles modules = .ok files) : files = writtenFiles Code.render modules := by
  obtain ⟨moduleFiles, hfiles, h⟩ := bind_eq_ok.1 h
  obtain ⟨declarations, hdeclarations, h⟩ := bind_eq_ok.1 h
  obtain ⟨index, hindex, h⟩ := bind_eq_ok.1 h
  cases h
  rw [eq_map_of_mapM hfiles fun _ _ => generatedFile_eq, generatedFile_eq hindex,
    eq_map_of_mapM hdeclarations fun _ _ => moduleDeclaration_eq]
  simp [writtenFiles, moduleCodes]

def Settings.written (settings : Settings) (layOut : Code → String) (c : Code) : String :=
  if settings.skipFormat then c.render else layOut c

/-- The generated files, with their code laid out by a formatter.  It is given code that parses. -/
def DescriptorSet.generateFormatted (layOut : Code → String) (s : DescriptorSet)
    (settings : Settings) (targets : Option (List String)) :
    Except GenerateError (List GeneratedFile) := do
  let t ← NameTable.ofFiles settings s
  let modules ← generatedModules settings targets t s.files
  let _ ← moduleFiles modules
  return writtenFiles (settings.written layOut) modules

section

variable {layOut : Code → String} {settings : Settings} {targets : Option (List String)}
  {s : DescriptorSet} {files : List GeneratedFile}

/-- Without a formatter, the files are as they were generated. -/
theorem DescriptorSet.generateFormatted_of_skipFormat (layOut : Code → String)
    (h : settings.skipFormat) :
    s.generateFormatted layOut settings targets = s.generate settings targets := by
  have hwritten : settings.written layOut = Code.render := by
    funext c
    rw [Settings.written, if_pos h]
  unfold generateFormatted generate
  refine bind_congr fun t => bind_congr fun modules => ?_
  rw [hwritten]
  cases hfiles : moduleFiles modules with
  | error e => rfl
  | ok files =>
    rw [moduleFiles_eq hfiles]
    rfl

theorem DescriptorSet.generateFormatted_ok (h : s.generateFormatted layOut settings targets = .ok files) :
    ∃ t modules, NameTable.ofFiles settings s = .ok t ∧
      generatedModules settings targets t s.files = .ok modules ∧
      files = writtenFiles (settings.written layOut) modules := by
  obtain ⟨t, ht, h⟩ := bind_eq_ok.1 h
  obtain ⟨modules, hmodules, h⟩ := bind_eq_ok.1 h
  obtain ⟨_, -, h⟩ := bind_eq_ok.1 h
  exact ⟨t, modules, ht, hmodules, (Except.ok.inj h).symm⟩

end

/-! ## The items of a module -/

namespace NameTable

variable {t : NameTable} {module : String} {files files' : List FileDescriptor} {f : FileDescriptor}

def itemsOf (t : NameTable) (f : FileDescriptor) : List Item :=
  match FileItems.items ⟨t, f⟩ with
  | .ok items => items
  | .error _ => []

def itemsIn (t : NameTable) (module : String) (files : List FileDescriptor) : List Item :=
  (files.filter (·.moduleIdent.text = module)).flatMap t.itemsOf

theorem itemsIn_append :
    t.itemsIn module (files ++ files') = t.itemsIn module files ++ t.itemsIn module files' := by
  rw [itemsIn, List.filter_append, List.flatMap_append, itemsIn, itemsIn]

theorem itemsIn_singleton :
    t.itemsIn module [f] = if f.moduleIdent.text = module then t.itemsOf f else [] := by
  by_cases h : f.moduleIdent.text = module <;> simp [itemsIn, h]

/-- A module has items if a file has some there. -/
theorem itemsIn_ne_nil : t.itemsIn module files ≠ [] ↔
    ∃ f ∈ files, t.itemsOf f ≠ [] ∧ f.moduleIdent.text = module := by
  simp [itemsIn, List.flatMap_eq_nil_iff, and_comm]

/-- Modules ascend by name and have the items of some files, and each of them has one. -/
structure Sorts (t : NameTable) (files : List FileDescriptor) (modules : List (String × List Item)) :
    Prop where
  ascending : Ascending modules
  mem_iff : ∀ e, e ∈ modules ↔ e.2 ≠ [] ∧ e.2 = t.itemsIn e.1 files

namespace Sorts

variable {modules : List (String × List Item)}

/-- The items that a module has so far. -/
theorem entry (h : t.Sorts files modules) (module : String) :
    (entryOf? module modules).getD [] = t.itemsIn module files := by
  by_cases hitems : t.itemsIn module files = []
  · rw [hitems, entryOf?_eq_none_iff.2]
    · rfl
    · intro hmem
      obtain ⟨e, he, rfl⟩ := List.mem_map.1 hmem
      obtain ⟨hne, heq⟩ := (h.mem_iff e).1 he
      exact hne (heq.trans hitems)
  · rw [entryOf?_of_mem h.ascending.nodup ((h.mem_iff (module, t.itemsIn module files)).2
      ⟨hitems, rfl⟩), Option.getD_some]

/-- A file without items changes nothing. -/
theorem pass (h : t.Sorts files modules) (hitems : t.itemsOf f = []) :
    t.Sorts (files ++ [f]) modules where
  ascending := h.ascending
  mem_iff e := by
    rw [h.mem_iff, itemsIn_append, itemsIn_singleton, hitems, ite_self, List.append_nil]

/-- The items of a file go behind those that its module has. -/
theorem add (h : t.Sorts files modules) (hitems : t.itemsOf f ≠ []) :
    t.Sorts (files ++ [f]) (addToModule f.moduleIdent.text (t.itemsOf f) modules) where
  ascending := h.ascending.insertByKey _
  mem_iff := by
    rintro ⟨module, items⟩
    rw [addToModule, h.entry, h.ascending.mem_insertByKey_iff, h.mem_iff, itemsIn_append,
      itemsIn_singleton]
    -- No other module is touched.
    by_cases hmodule : module = f.moduleIdent.text
    · rw [hmodule]
      simp only [Prod.mk.injEq, true_and, ne_eq, not_true_eq_false, and_false, or_false, if_true]
      exact ⟨fun heq => ⟨by simp [heq, hitems], heq⟩, And.right⟩
    · simp [hmodule, Ne.symm hmodule]

/-- The modules are those of the files with items. -/
theorem mem_keys_iff (h : t.Sorts files modules) (module : String) : module ∈ modules.map (·.1) ↔
    ∃ f ∈ files, t.itemsOf f ≠ [] ∧ f.moduleIdent.text = module := by
  rw [← itemsIn_ne_nil, List.mem_map]
  constructor
  · rintro ⟨e, he, rfl⟩
    obtain ⟨hne, heq⟩ := (h.mem_iff e).1 he
    rwa [← heq]
  · intro hne
    exact ⟨(module, t.itemsIn module files), (h.mem_iff _).2 ⟨hne, rfl⟩, rfl⟩

end Sorts

/-- What was generated is sorted into modules. -/
theorem sorts_generatedModules {settings : Settings} {targets : Option (List String)}
    {s : DescriptorSet} {modules : List (String × List Item)}
    (h : generatedModules settings targets t s.files = .ok modules) :
    t.Sorts (s.generatedFiles settings targets) modules := by
  refine generatedModules_induct (P := t.Sorts) h ?_ ?_ ?_
  · exact ⟨List.Pairwise.nil, fun e => by simp [itemsIn]⟩
  · intro done f modules hitems hdone
    exact hdone.pass (by rw [itemsOf, hitems])
  · intro done f items modules hitems hne hdone
    have hof : t.itemsOf f = items := by rw [itemsOf, hitems]
    rw [← hof] at hne ⊢
    exact hdone.add hne

end NameTable

/-! ## The files of runs -/

/-- A word that is kept from being reserved is not reserved. -/
theorem unreserved_not_mem (word : String) : unreserved word ∉ Ident.reserved := by
  have hlonger : ∀ word ∈ Ident.reserved, word ++ "_" ∉ Ident.reserved := by decide
  unfold unreserved
  split
  · rename_i hmem
    exact hlonger word (List.contains_iff_mem.1 hmem)
  · rename_i hnot
    exact fun hmem => hnot (List.contains_iff_mem.2 hmem)

theorem FileDescriptor.moduleIdent_not_mem (f : FileDescriptor) :
    f.moduleIdent.word ∉ Ident.reserved := by
  obtain ⟨word, hword⟩ : ∃ word, f.moduleIdent = ⟨unreserved word, false⟩ := ⟨_, rfl⟩
  rw [hword]
  exact unreserved_not_mem word

/-- No module has the file that declares the modules. -/
theorem FileDescriptor.moduleIdent_ne_mod (f : FileDescriptor) : f.moduleIdent.text ≠ "mod" := by
  intro h
  rw [NameTable.text_moduleIdent] at h
  exact f.moduleIdent_not_mem (h ▸ by decide)

section

variable {write : Code → String} {modules : List (String × List Item)}

theorem names_writtenFiles : (writtenFiles write modules).map (·.name) =
    (modules.map (·.1)).map (· ++ ".rs") ++ ["mod.rs"] := by
  simp [writtenFiles, moduleCodes]

theorem mem_writtenFiles {file : GeneratedFile} : file ∈ writtenFiles write modules ↔
    (∃ e ∈ modules, file = ⟨e.1 ++ ".rs", header ++ write (.sequence (itemsCode e.2))⟩) ∨
      file = ⟨"mod.rs",
        header ++ write (.sequence ((modules.map (·.1)).map declarationCode))⟩ := by
  simp [writtenFiles, moduleCodes, Function.comp_def, eq_comm]

/-- The file of a module has the items of the module. -/
theorem mem_writtenFiles_iff {module : String} {file : GeneratedFile} (hmodule : module ≠ "mod")
    (hname : file.name = module ++ ".rs") :
    file ∈ writtenFiles write modules ↔ ∃ items, (module, items) ∈ modules ∧
      file.content = header ++ write (.sequence (itemsCode items)) := by
  obtain ⟨name, content⟩ := file
  subst hname
  rw [mem_writtenFiles]
  constructor
  · rintro (⟨e, he, heq⟩ | heq)
    · obtain ⟨hsame, rfl⟩ := GeneratedFile.mk.inj heq
      rw [String.append_left_inj] at hsame
      exact ⟨e.2, hsame ▸ he, rfl⟩
    · obtain ⟨hsame, -⟩ := GeneratedFile.mk.inj heq
      have hmod : module ++ ".rs" = "mod" ++ ".rs" := hsame
      exact absurd ((String.append_left_inj _).1 hmod) hmodule
  · rintro ⟨items, he, rfl⟩
    exact .inl ⟨(module, items), he, rfl⟩

end

/-- Which files a run makes: one for each module of the files with items that code is generated
    for, and one that declares these modules. -/
structure DescriptorSet.Lists (s : DescriptorSet) (settings : Settings) (layOut : Code → String)
    (targets : Option (List String)) (t : NameTable) (modules : List String)
    (files : List GeneratedFile) : Prop where
  ascending : modules.Pairwise (· < ·)
  /-- The modules are those of the files that have items, targets that are not left out. -/
  mem_iff : ∀ module, module ∈ modules ↔
    ∃ f ∈ s.generatedFiles settings targets, t.itemsOf f ≠ [] ∧ f.moduleIdent.text = module
  /-- The file that declares the modules is the last one. -/
  names : files.map (·.name) = modules.map (· ++ ".rs") ++ ["mod.rs"]
  nodup : (files.map (·.name)).Nodup
  declares : ⟨"mod.rs", header ++ settings.written layOut (.sequence (modules.map declarationCode))⟩ ∈
    files

namespace DescriptorSet

variable {layOut : Code → String} {settings : Settings} {targets : Option (List String)}
  {s : DescriptorSet} {t : NameTable} {modules : List (String × List Item)}

theorem lists_writtenFiles (h : t.Sorts (s.generatedFiles settings targets) modules) :
    s.Lists settings layOut targets t (modules.map (·.1))
      (writtenFiles (settings.written layOut) modules) where
  ascending := List.pairwise_map.2 h.ascending
  mem_iff := h.mem_keys_iff
  names := names_writtenFiles
  nodup := by
    have hkeys : "mod" ∉ modules.map (·.1) := by
      intro hmem
      obtain ⟨f, -, -, hmodule⟩ := (h.mem_keys_iff "mod").1 hmem
      exact f.moduleIdent_ne_mod hmodule
    have hnames : (writtenFiles (settings.written layOut) modules).map (·.name) =
        (modules.map (·.1) ++ ["mod"]).map (· ++ ".rs") := by
      rw [names_writtenFiles, List.map_append]
      rfl
    rw [hnames]
    refine List.Nodup.map (fun _ _ => (String.append_left_inj _).1) ?_
    exact List.nodup_append_comm.1 (List.nodup_cons.2 ⟨hkeys, h.ascending.nodup⟩)
  declares := mem_writtenFiles.2 (.inr rfl)

/-- What is in the file of a module depends only on the files of the module that code is generated
    for, whatever other targets there are.  Each run makes the files of its modules, each once, and
    the one that declares these. -/
theorem generateFormatted_targets {targets₁ targets₂ : Option (List String)}
    {files₁ files₂ : List GeneratedFile}
    (first : s.generateFormatted layOut settings targets₁ = .ok files₁)
    (second : s.generateFormatted layOut settings targets₂ = .ok files₂) :
    ∃ t modules₁ modules₂, NameTable.ofFiles settings s = .ok t ∧
      s.Lists settings layOut targets₁ t modules₁ files₁ ∧
      s.Lists settings layOut targets₂ t modules₂ files₂ ∧
      ∀ f ∈ s.files,
        (s.generatedFiles settings targets₁).filter (·.moduleIdent.text = f.moduleIdent.text) =
          (s.generatedFiles settings targets₂).filter (·.moduleIdent.text = f.moduleIdent.text) →
        ∀ file : GeneratedFile, file.name = f.moduleIdent.text ++ ".rs" →
          (file ∈ files₁ ↔ file ∈ files₂) := by
  obtain ⟨t, modules₁, ht, hmodules₁, rfl⟩ := generateFormatted_ok first
  obtain ⟨t', modules₂, ht', hmodules₂, rfl⟩ := generateFormatted_ok second
  -- The table knows nothing of targets, so both runs name things alike.
  obtain rfl : t = t' := Except.ok.inj (ht.symm.trans ht')
  have hsorts₁ := NameTable.sorts_generatedModules hmodules₁
  have hsorts₂ := NameTable.sorts_generatedModules hmodules₂
  refine ⟨t, _, _, ht, lists_writtenFiles hsorts₁, lists_writtenFiles hsorts₂, ?_⟩
  intro f _ hsame file hname
  have hitems : t.itemsIn f.moduleIdent.text (s.generatedFiles settings targets₁) =
      t.itemsIn f.moduleIdent.text (s.generatedFiles settings targets₂) := by
    rw [NameTable.itemsIn, hsame, NameTable.itemsIn]
  simp only [mem_writtenFiles_iff f.moduleIdent_ne_mod hname, hsorts₁.mem_iff, hsorts₂.mem_iff,
    hitems]

/-- Two files of one package, and one of a package whose name is reserved. -/
def sharedShop : DescriptorSet :=
  { files :=
      [ { name := some "shop.proto"
          package := some "shop"
          messageTypes := [{ name := some "Hat", fields := [NameTable.boolField "lined" 1] }]
          dialect := some "proto3" },
        { name := some "mod.proto"
          package := some "mod"
          messageTypes := [{ name := some "Hat" }]
          dialect := some "proto3" },
        { name := some "shop_extra.proto"
          package := some "shop"
          messageTypes := [{ name := some "Scarf" }]
          dialect := some "proto3" } ] }

theorem names_generate_sharedShop :
    (sharedShop.generate { skipFormat := true } none).toOption.map (·.map (·.name)) =
        some ["mod_.rs", "shop.rs", "mod.rs"] ∧
      (sharedShop.generate { skipFormat := true } (some ["shop_extra.proto", "shop.proto"])).toOption.map
        (·.map (·.name)) = some ["shop.rs", "mod.rs"] := by
  constructor
  all_goals
    unfold sharedShop
    simp only [DescriptorSet.generate, NameTable.ofFiles, NameTable.addFiles, NameTable.addFile,
      NameTable.addMessages_cons, NameTable.addMessages_nil]
    decide +kernel

theorem exists_of_names {ε : Type} {x : Except ε (List GeneratedFile)} {names : List String}
    (h : x.toOption.map (·.map (·.name)) = some names) :
    ∃ files, x = .ok files ∧ files.map (·.name) = names := by
  cases x with
  | error => cases h
  | ok files => exact ⟨files, rfl, Option.some.inj h⟩

theorem generatedFiles_sharedShop :
    (sharedShop.generatedFiles { skipFormat := true } none).filter (·.moduleIdent.text = "shop") =
      (sharedShop.generatedFiles { skipFormat := true } (some ["shop_extra.proto", "shop.proto"])).filter
        (·.moduleIdent.text = "shop") := by
  rw [generatedFiles, generatedFiles, List.filter_filter, List.filter_filter]
  apply List.filter_congr
  simp only [sharedShop, List.forall_mem_cons]
  refine ⟨?_, ?_, ?_, by simp⟩ <;> decide +kernel

/-- The file of a package is the same whether or not the other package is asked for. -/
theorem generateFormatted_targets_sharedShop : ∃ files₁ files₂,
    sharedShop.generateFormatted Code.render { skipFormat := true } none = .ok files₁ ∧
      sharedShop.generateFormatted Code.render { skipFormat := true }
        (some ["shop_extra.proto", "shop.proto"]) = .ok files₂ ∧
      files₁.map (·.name) = ["mod_.rs", "shop.rs", "mod.rs"] ∧
      files₂.map (·.name) = ["shop.rs", "mod.rs"] ∧
      ∃ file, file.name = "shop.rs" ∧ file ∈ files₁ ∧ file ∈ files₂ := by
  obtain ⟨files₁, hfiles₁, hnames₁⟩ := exists_of_names names_generate_sharedShop.1
  obtain ⟨files₂, hfiles₂, hnames₂⟩ := exists_of_names names_generate_sharedShop.2
  rw [← generateFormatted_of_skipFormat Code.render rfl] at hfiles₁ hfiles₂
  obtain ⟨-, -, -, -, -, -, hsame⟩ := generateFormatted_targets hfiles₁ hfiles₂
  obtain ⟨file, hfile, hname⟩ : ∃ file ∈ files₁, file.name = "shop.rs" :=
    List.mem_map.1 (hnames₁ ▸ by simp)
  have hshop : sharedShop.files[0].moduleIdent.text = "shop" := by decide +kernel
  have hboth := hsame sharedShop.files[0] List.mem_cons_self
  rw [hshop] at hboth
  exact ⟨files₁, files₂, hfiles₁, hfiles₂, hnames₁, hnames₂, file, hname, hfile,
    (hboth generatedFiles_sharedShop file hname).1 hfile⟩

end DescriptorSet

end Protobuf
