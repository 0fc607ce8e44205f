import Protobuf.Proofs.Generate.Emission

/-! # What generated files contain

The file of a module is the text of its items' code, so what a message has a place for is
written, merged and mapped to and from JSON there.

* `Code.Within`: code that stands somewhere in other code.
* `FieldPlace.Coded`: a place is served by the code of a message.
* `moduleFiles_shows`, `moduleFiles_coded`: the items of a module, and the code of a message,
  stand in a file.
* `DescriptorSet.generate_ok`, `moduleFiles_keeps`: what is generated, step by step.
* `DescriptorSet.generate_keeps`: what is generated for the fields of a message.
-/

namespace Protobuf

namespace Code

mutual

/-- Code is other code or stands somewhere in it. -/
inductive Within (c : Code) : Code → Prop
  | self : Within c c
  | group {d body} (h : WithinList c body) : Within c (.group d body)
  | sequence {parts} (h : WithinList c parts) : Within c (.sequence parts)

inductive WithinList (c : Code) : List Code → Prop
  | head {b rest} (h : Within c b) : WithinList c (b :: rest)
  | tail {b rest} (h : WithinList c rest) : WithinList c (b :: rest)

end

variable {b c : Code} {parts : List Code}

theorem WithinList.of_mem (h : Within c b) (hb : b ∈ parts) : WithinList c parts := by
  induction parts with
  | nil => cases hb
  | cons b' parts ih =>
    rcases List.mem_cons.1 hb with rfl | hb
    · exact .head h
    · exact .tail (ih hb)

/-- One of several pieces that are made alike stands among them. -/
theorem WithinList.of_map {α : Type} {f : α → Code} {as : List α} {a : α} (ha : a ∈ as) :
    WithinList (f a) (as.map f) :=
  .of_mem .self (List.mem_map_of_mem ha)

mutual

theorem Within.trans (h : Within b c) : {d : Code} → Within c d → Within b d
  | _, .self => h
  | _, .group h' => .group (h.trans_list h')
  | _, .sequence h' => .sequence (h.trans_list h')

theorem Within.trans_list (h : Within b c) : {parts : List Code} → WithinList c parts →
    WithinList b parts
  | _, .head h' => .head (h.trans h')
  | _, .tail h' => .tail (h.trans_list h')

end

end Code

/-! ## Places -/

/-- The code that merges a member of a JSON object into a place.  That of a oneof member is
    part of what is done for its oneof, of which at most one member may be there. -/
def FieldPlace.mergeJsonCode : FieldPlace → Code
  | field f => f.mergeJsonCode
  | member o _ => o.mergeJsonCode

/-- Code that writes a place as a record, merges a record into it, maps it to JSON and merges
    JSON into it. -/
structure FieldPlace.Coded (p : FieldPlace) (c : Code) : Prop where
  write : p.writeCode.Within c
  merge : p.mergeCode.Within c
  toJson : p.toJsonCode.Within c
  mergeJson : p.mergeJsonCode.Within c

theorem FieldPlace.Coded.within {p : FieldPlace} {b c : Code} (h : p.Coded b) (hbc : b.Within c) :
    p.Coded c :=
  ⟨h.write.trans hbc, h.merge.trans hbc, h.toJson.trans hbc, h.mergeJson.trans hbc⟩

namespace MessageModel

variable {model : MessageModel} {p : FieldPlace}

theorem wireCode_within_code : model.wireCode.Within model.code :=
  .sequence (.tail (.tail (.head .self)))

theorem jsonCode_within_code : model.jsonCode.Within model.code :=
  .sequence (.tail (.tail (.tail (.head .self))))

theorem writeCode_within (hp : p ∈ model.places) : p.writeCode.Within model.wireCode :=
  .sequence (.tail (.tail (.head (.group (.tail (.tail (.head (.group (.of_map hp)))))))))

theorem mergeCode_within (hp : p ∈ model.places) : p.mergeCode.Within model.wireCode := by
  have hmatch : Code.WithinList p.mergeCode
      [.sequence (model.places.map (·.mergeCode)), "_ => reader . skip_field () ? ,"] :=
    .head (.sequence (.of_map hp))
  -- The function that merges stands behind the one that writes; its loop holds the match.
  exact .sequence (.tail (.tail (.head (.group (.tail (.tail (.tail (.tail (.tail (.head
    (.group (.tail (.head (.group (.tail (.head (.group hmatch)))))))))))))))))

theorem mem_places_iff : p ∈ model.places ↔
    (∃ f ∈ model.fields, p = .field f) ∨ ∃ o ∈ model.oneofs, ∃ v ∈ o.variants, p = .member o v := by
  rw [places, (List.mergeSort_perm _ _).mem_iff]
  simp only [List.mem_append, List.mem_map, List.mem_flatMap, eq_comm]

theorem places_isEmpty (hp : p ∈ model.places) : model.places.isEmpty = false :=
  List.isEmpty_eq_false_iff.2 (List.ne_nil_of_mem hp)

theorem toJsonCode_within (hp : p ∈ model.places) : p.toJsonCode.Within model.jsonCode := by
  have hbody : p.toJsonCode.Within model.toJsonFunction := by
    simp only [toJsonFunction, places_isEmpty hp, Bool.false_eq_true, if_false]
    exact .sequence (.tail (.tail (.head (.group (.tail (.head (.sequence (.of_map hp))))))))
  exact .sequence (.tail (.tail (.head (.group (.head hbody)))))

theorem mergeJsonCode_within (hp : p ∈ model.places) :
    p.mergeJsonCode.Within model.jsonCode := by
  have hbody : p.mergeJsonCode.Within model.mergeJsonFunction := by
    simp only [mergeJsonFunction, places_isEmpty hp, Bool.false_eq_true, if_false]
    refine .sequence (.tail (.tail (.head (.group (.tail ?_)))))
    -- Oneofs are merged behind the fields that are members of none.
    rcases mem_places_iff.1 hp with ⟨f, hf, rfl⟩ | ⟨o, ho, v, -, rfl⟩
    · rw [FieldPlace.mergeJsonCode]
      exact .head (.sequence (.of_map hf))
    · rw [FieldPlace.mergeJsonCode]
      exact .tail (.head (.sequence (.of_map ho)))
  exact .sequence (.tail (.tail (.head (.group (.tail (.head hbody))))))

/-- The code of a message serves each of its places. -/
theorem coded (hp : p ∈ model.places) : p.Coded model.code where
  write := (writeCode_within hp).trans wireCode_within_code
  merge := (mergeCode_within hp).trans wireCode_within_code
  toJson := (toJsonCode_within hp).trans jsonCode_within_code
  mergeJson := (mergeJsonCode_within hp).trans jsonCode_within_code

end MessageModel

/-! ## Files -/

mutual

theorem Item.code_within {model : MessageModel} :
    {i : Item} → model ∈ i.models → model.code.Within i.code
  | .message m, h => by
    rw [Item.models, List.mem_singleton] at h
    rw [Item.code, h]
    exact .self
  | .oneof _, h => by
    rw [Item.models] at h
    cases h
  | .enumeration _, h => by
    rw [Item.models] at h
    cases h
  | .module _ items, h => by
    rw [Item.models] at h
    rw [Item.code]
    exact .sequence (.tail (.tail (.head (.group (itemsCode_within h)))))

theorem itemsCode_within {model : MessageModel} :
    {items : List Item} → model ∈ itemsModels items → Code.WithinList model.code (itemsCode items)
  | [], h => by
    rw [itemsModels] at h
    cases h
  | i :: rest, h => by
    rw [itemsModels, List.mem_append] at h
    rw [itemsCode]
    rcases h with h | h
    · exact .head (Item.code_within h)
    · exact .tail (itemsCode_within h)

end

def GeneratedFile.Shows (file : GeneratedFile) (c : Code) : Prop :=
  file.content = header ++ c.render

/-- The items of each module are written out in its file. -/
theorem moduleFiles_shows {modules : List (String × List Item)} {files : List GeneratedFile}
    (h : moduleFiles modules = .ok files) {e : String × List Item} (he : e ∈ modules) :
    ∃ file ∈ files, file.name = e.1 ++ ".rs" ∧ file.Shows (.sequence (itemsCode e.2)) := by
  obtain ⟨moduleFiles, hfiles, h⟩ := bind_eq_ok.1 h
  obtain ⟨declarations, -, h⟩ := bind_eq_ok.1 h
  obtain ⟨index, -, h⟩ := bind_eq_ok.1 h
  cases h
  obtain ⟨file, hfile, hcode⟩ := exists_mem_of_forall₂ (mapM_eq_ok_iff.1 hfiles) he
  simp only [generatedFile] at hcode
  split at hcode
  · cases hcode
  · cases hcode
    exact ⟨_, List.mem_append_left _ hfile, rfl, rfl⟩

/-- The code of each message stands in a file. -/
theorem moduleFiles_coded {modules : List (String × List Item)} {files : List GeneratedFile}
    (h : moduleFiles modules = .ok files) {model : MessageModel}
    (hmodel : model ∈ itemsModels (modules.flatMap (·.2))) :
    ∃ file ∈ files, ∃ code, file.Shows code ∧ model.code.Within code := by
  rw [itemsModels_eq_flatMap, List.flatMap_assoc] at hmodel
  obtain ⟨e, he, hmodel⟩ := List.mem_flatMap.1 hmodel
  rw [← itemsModels_eq_flatMap] at hmodel
  obtain ⟨file, hfile, -, hshows⟩ := moduleFiles_shows h he
  exact ⟨file, hfile, _, hshows, .sequence (itemsCode_within hmodel)⟩

/-! ## Generated messages -/

section

variable {settings : Settings} {targets : Option (List String)} {s : DescriptorSet} {t : NameTable}
  {modules : List (String × List Item)} {files : List GeneratedFile}

/-- What is generated comes from a table and from modules. -/
theorem DescriptorSet.generate_ok (h : s.generate settings targets = .ok files) :
    ∃ t modules, NameTable.ofFiles settings s = .ok t ∧
      generatedModules settings targets t s.files = .ok modules ∧ moduleFiles modules = .ok files := by
  obtain ⟨t, ht, h⟩ := bind_eq_ok.1 h
  obtain ⟨modules, hmodules, hfiles⟩ := bind_eq_ok.1 h
  exact ⟨t, modules, ht, hmodules, hfiles⟩

/-- A message that code is generated for has one model, which a file has the code of. -/
theorem moduleFiles_keeps (ht : NameTable.ofFiles settings s = .ok t)
    (hmodules : generatedModules settings targets t s.files = .ok modules)
    (hfiles : moduleFiles modules = .ok files) {e : String × MessageDescriptor}
    (he : e ∈ s.emittedMessages settings targets t) (once : s.NamesOnce e.1) :
    ∃ model, (itemsModels (modules.flatMap (·.2))).filter (·.typeName = e.1) = [model] ∧
      model.Keeps t e.2 (e.2.fields.filter e.2.hasPlace) ∧
      ∃ file ∈ files, ∃ code, file.Shows code ∧ model.code.Within code := by
  obtain ⟨model, hunique, hkeeps⟩ := generatedModules_keeps ht hmodules he once
  have hmodel : model ∈ itemsModels (modules.flatMap (·.2)) :=
    List.mem_of_mem_filter (hunique ▸ List.mem_singleton_self model)
  exact ⟨model, hunique, hkeeps, moduleFiles_coded hfiles hmodel⟩

end

/-- If a schema is generated, then each message that code is generated for and whose name no
    other message has has one model among the generated items, and a file serves each place of
    it.  The model has exactly one place for each field of the message that is no oneof member
    or one of a oneof that the message declares, and no two places have one number.  It has a
    place for every field, under numbers that a record may have, just if every field is such a
    one and every number was declared in range: neither is checked. -/
theorem DescriptorSet.generate_keeps {settings : Settings} {targets : Option (List String)}
    {s : DescriptorSet} {files : List GeneratedFile} (h : s.generate settings targets = .ok files) :
    ∃ t modules, NameTable.ofFiles settings s = .ok t ∧
      generatedModules settings targets t s.files = .ok modules ∧ moduleFiles modules = .ok files ∧
      ∀ e ∈ s.emittedMessages settings targets t, s.NamesOnce e.1 →
        ∃ model, (itemsModels (modules.flatMap (·.2))).filter (·.typeName = e.1) = [model] ∧
          (∃ file ∈ files, ∃ code, file.Shows code ∧ ∀ p ∈ model.places, p.Coded code) ∧
          model.Keeps t e.2 (e.2.fields.filter e.2.hasPlace) ∧
          ((model.Keeps t e.2 e.2.fields ∧ ∀ p ∈ model.places, IsFieldNumber p.number.toNat) ↔
            ∀ f ∈ e.2.fields, e.2.hasPlace f ∧ f.IsNumbered) := by
  obtain ⟨t, modules, ht, hmodules, hfiles⟩ := DescriptorSet.generate_ok h
  refine ⟨t, modules, ht, hmodules, hfiles, fun e he once => ?_⟩
  obtain ⟨model, hunique, hkeeps, file, hfile, code, hshows, hcode⟩ :=
    moduleFiles_keeps ht hmodules hfiles he once
  exact ⟨model, hunique, ⟨file, hfile, code, hshows, fun p hp => (model.coded hp).within hcode⟩,
    hkeeps, hkeeps.all_iff⟩

/-- A message whose only field is a member of its oneof. -/
def bandedHat : MessageDescriptor :=
  { name := some "Hat"
    fields := [{ NameTable.boolField "ribbon" 1 with oneofIndex := some 0 }]
    oneofs := [{ name := some "band" }] }

/-- A message with a number that no record has room for, and with a member of a oneof that it
    does not declare. -/
def peakedCap : MessageDescriptor :=
  { name := some "Cap"
    fields :=
      [ NameTable.boolField "peaked" 536870912,
        { NameTable.boolField "lined" 2 with oneofIndex := some 0 } ] }

def hatStand : DescriptorSet :=
  { files :=
      [ { name := some "stand.proto"
          package := some "stand"
          messageTypes := [bandedHat, peakedCap]
          dialect := some "proto3" } ] }

theorem distinct_hatStand : hatStand.HasDistinctDeclarations := by
  have hmessages : hatStand.allMessages.map (·.1) = [".stand.Hat", ".stand.Cap"] := by cbv
  have henums : hatStand.allEnums.map (·.1) = [] := by cbv
  rw [DescriptorSet.HasDistinctDeclarations, hmessages, henums]
  decide

theorem exists_generate_hatStand : ∃ files, hatStand.generate {} none = .ok files := by
  apply exists_of_isOk
  unfold hatStand bandedHat peakedCap
  simp only [DescriptorSet.generate, NameTable.ofFiles, NameTable.addFiles, NameTable.addFile,
    NameTable.addMessages_cons, NameTable.addMessages_nil]
  decide +kernel

theorem mem_emittedMessages_hatStand {t : NameTable} (h : NameTable.ofFiles {} hatStand = .ok t) :
    (".stand.Hat", bandedHat) ∈ hatStand.emittedMessages {} none t ∧
      (".stand.Cap", peakedCap) ∈ hatStand.emittedMessages {} none t := by
  have hfile : hatStand.files[0] ∈ hatStand.generatedFiles {} none :=
    List.mem_filter.2 ⟨List.mem_cons_self, by decide +kernel⟩
  have hemitted := @DescriptorSet.mem_emittedMessages_of_declared _ _ _ _ h distinct_hatStand _ hfile
  exact ⟨hemitted List.mem_cons_self fun _ _ => rfl,
    hemitted (List.mem_cons_of_mem _ List.mem_cons_self) fun _ _ => rfl⟩

/-- All fields of a message with no fault in it are kept, though the other message of the file
    has two. -/
theorem generate_keeps_bandedHat : ∃ files t modules model,
    hatStand.generate {} none = .ok files ∧ moduleFiles modules = .ok files ∧
      (itemsModels (modules.flatMap (·.2))).filter (·.typeName = ".stand.Hat") = [model] ∧
      model.Keeps t bandedHat bandedHat.fields ∧
      ∀ p ∈ model.places, IsFieldNumber p.number.toNat := by
  obtain ⟨files, hfiles⟩ := exists_generate_hatStand
  obtain ⟨t, modules, ht, -, hmodules, hall⟩ := DescriptorSet.generate_keeps hfiles
  obtain ⟨model, hmodel, -, -, hiff⟩ :=
    hall _ (mem_emittedMessages_hatStand ht).1 (distinct_hatStand.once _)
  refine ⟨files, t, modules, model, hfiles, hmodules, hmodel, hiff.2 fun f hf => ?_⟩
  rw [bandedHat, List.mem_singleton] at hf
  subst hf
  exact ⟨by decide, 1, rfl, by decide, by decide⟩

/-- A schema is generated although a message has a field that the model has no place for, and
    a place under a number that no record can have. -/
theorem generate_peakedCap : ∃ files t modules model,
    hatStand.generate {} none = .ok files ∧ NameTable.ofFiles {} hatStand = .ok t ∧
      generatedModules {} none t hatStand.files = .ok modules ∧ moduleFiles modules = .ok files ∧
      (".stand.Cap", peakedCap) ∈ hatStand.emittedMessages {} none t ∧
      (itemsModels (modules.flatMap (·.2))).filter (·.typeName = ".stand.Cap") = [model] ∧
      (∃ f ∈ peakedCap.fields, ∀ p ∈ model.places, ¬ p.Holds t model.typeName peakedCap f) ∧
      ∃ p ∈ model.places, ¬ IsFieldNumber p.number.toNat := by
  obtain ⟨files, hfiles⟩ := exists_generate_hatStand
  obtain ⟨t, modules, ht, hmodules, h⟩ := DescriptorSet.generate_ok hfiles
  have hemitted := (mem_emittedMessages_hatStand ht).2
  obtain ⟨model, hmodel, hkeeps⟩ := generatedModules_keeps ht hmodules hemitted (distinct_hatStand.once _)
  refine ⟨files, t, modules, model, hfiles, ht, hmodules, h, hemitted, hmodel, ?_, ?_⟩
  · -- The oneof of the second field is not declared.
    refine ⟨{ NameTable.boolField "lined" 2 with oneofIndex := some 0 }, by simp [peakedCap], ?_⟩
    intro p _ hholds
    exact absurd hholds.hasPlace (by decide)
  · have hkept : NameTable.boolField "peaked" 536870912 ∈
        peakedCap.fields.filter peakedCap.hasPlace :=
      List.mem_filter.2 ⟨by simp [peakedCap], by decide⟩
    obtain ⟨p, ⟨hp, hholds⟩, -⟩ := hkeeps.existsUnique hkept
    refine ⟨p, hp, fun hvalid => ?_⟩
    obtain ⟨n, hn, -, hle⟩ := hholds.isFieldNumber_iff.1 hvalid
    cases hn
    revert hle
    decide

end Protobuf
