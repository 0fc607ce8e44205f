import Mathlib
import Protobuf.Proofs.Generate.Writing
import Protobuf.Proofs.Json.Exact

/-! # JSON keys of generated messages

In JSON a field goes by two names, its own and a JSON name.  What is generated for a message
inserts and looks up the names that the descriptor gives to its fields, and no pass looks
whether two fields share one: the keys of two places are disjoint just if the names of their
fields are.

* `FieldDescriptor.jsonKeys`, `FieldPlace.jsonKeys`: the names of a field and of a place.
* `FieldPlace.Keyed`: code that inserts and looks up the names of a place.
* `MessageModel.Keeps.jsonKeys`: the names of a message's places are those of its fields.
* `DescriptorSet.generate_jsonKeys`: the JSON keys of each message that is generated.
-/

namespace Protobuf

def FieldDescriptor.writtenKey (f : FieldDescriptor) : String :=
  f.jsonName.getD (lowerCamelCase (f.name.getD ""))

/-- The keys under which a field is found in JSON, first the one that it is written as. -/
def FieldDescriptor.jsonKeys (f : FieldDescriptor) : List String :=
  [f.writtenKey, f.name.getD ""]

def FieldPlace.model : FieldPlace → FieldModel
  | field f => f
  | member _ v => v.field

def FieldPlace.jsonKeys (p : FieldPlace) : List String := [p.model.jsonName, p.model.name]

/-! ## Code -/

/-- Code that inserts a member under the JSON name of a place, and looks for one under both
    of its names. -/
structure FieldPlace.Keyed (p : FieldPlace) (c : Code) : Prop where
  inserts : ∃ value, (insertMember p.model.jsonName value).Within c
  looksUp : (call "object . get" (p.jsonKeys.map .literal)).Within c

theorem FieldPlace.Keyed.within {p : FieldPlace} {b c : Code} (h : p.Keyed b) (hbc : b.Within c) :
    p.Keyed c := by
  obtain ⟨value, hvalue⟩ := h.inserts
  exact ⟨⟨value, hvalue.trans hbc⟩, h.looksUp.trans hbc⟩

theorem FieldModel.insertMember_within (f : FieldModel) :
    ∃ value, (insertMember f.jsonName value).Within f.toJsonCode := by
  unfold toJsonCode
  cases f.shape with
  | implicit => exact ⟨_, .sequence (.tail (.tail (.head (.group (.head .self)))))⟩
  | optional => exact ⟨_, .sequence (.tail (.tail (.tail (.tail (.head (.group (.head .self)))))))⟩
  | repeated => exact ⟨_, .sequence (.tail (.tail (.tail (.head (.group (.head .self))))))⟩
  | map => exact ⟨_, .sequence (.tail (.tail (.tail (.head (.group (.head .self))))))⟩

theorem FieldPlace.insertMember_within (p : FieldPlace) :
    ∃ value, (insertMember p.model.jsonName value).Within p.toJsonCode := by
  cases p with
  | field f => exact f.insertMember_within
  | member o v =>
    exact ⟨_, .sequence (.tail (.tail (.tail (.tail (.head (.group (.head .self)))))))⟩

theorem get_within_ifMember (f : FieldModel) (body : List Code) :
    (call "object . get" [.literal f.jsonName, .literal f.name]).Within (ifMember f body) :=
  .sequence (.tail (.tail (.tail (.head .self))))

/-- The names of a place are looked up where JSON is merged into the message. -/
theorem FieldPlace.get_within {model : MessageModel} {p : FieldPlace} (hp : p ∈ model.places) :
    (call "object . get" (p.jsonKeys.map .literal)).Within p.mergeJsonCode := by
  rcases MessageModel.mem_places_iff.1 hp with ⟨f, -, rfl⟩ | ⟨o, -, v, hv, rfl⟩
  · exact get_within_ifMember f _
  · refine .group (.tail (.tail (.tail (.head (.sequence ?_)))))
    exact .of_mem (get_within_ifMember v.field _) (List.mem_map.2 ⟨v, hv, rfl⟩)

theorem MessageModel.keyed {model : MessageModel} {p : FieldPlace} (hp : p ∈ model.places) :
    p.Keyed model.code := by
  obtain ⟨value, hvalue⟩ := p.insertMember_within
  exact ⟨⟨value, hvalue.trans (coded hp).toJson⟩, (FieldPlace.get_within hp).trans (coded hp).mergeJson⟩

/-! ## Keys of places -/

theorem FieldDescriptor.name_eq {f : FieldDescriptor} {p : String × Int32}
    (h : f.nameAndNumber = .ok p) : f.name = some p.1 := by
  obtain ⟨name, hname, h⟩ := bind_eq_ok.1 h
  split at h
  · cases h
    exact NameTable.required_eq_ok hname
  · cases h

theorem FieldModel.Describes.jsonKeys {t : NameTable} {typeName : String} {f : FieldDescriptor}
    {model : FieldModel} (h : model.Describes t typeName f) :
    [model.jsonName, model.name] = f.jsonKeys := by
  obtain ⟨name, n, hname, -, hmodelName, hjsonName⟩ := h.names
  rw [hmodelName, hjsonName, FieldDescriptor.jsonKeys, FieldDescriptor.writtenKey,
    FieldDescriptor.name_eq hname]
  rfl

theorem FieldPlace.Holds.jsonKeys {t : NameTable} {typeName : String} {m : MessageDescriptor}
    {f : FieldDescriptor} {p : FieldPlace} (h : p.Holds t typeName m f) :
    p.jsonKeys = f.jsonKeys := by
  cases h with
  | field _ hmodel => exact hmodel.jsonKeys
  | member _ _ _ hmodel => exact hmodel.jsonKeys

/-- The keys of the places of a message are those of the fields that it keeps. -/
theorem MessageModel.Keeps.jsonKeys {t : NameTable} {model : MessageModel} {m : MessageDescriptor}
    {fields : List FieldDescriptor} (h : model.Keeps t m fields) :
    (model.places.map (·.jsonKeys)).Perm (fields.map (·.jsonKeys)) := by
  obtain ⟨order, horder, hholds⟩ := h.places
  have hkeys : model.places.map (·.jsonKeys) = order.map (·.jsonKeys) := by
    generalize model.places = places at hholds
    clear horder
    induction hholds with
    | nil => rfl
    | cons hfp _ ih => rw [List.map_cons, List.map_cons, hfp.jsonKeys, ih]
  rw [hkeys]
  exact horder.map _

/-! ## Generated messages -/

/-- If a schema is generated, then each message that code is generated for and whose name no
    other message has has one model among the generated items, and a file inserts and looks up
    the keys of each place of it.  These keys are the names that the descriptor gives to the
    fields that have a place, so no two places share one just if no two of these fields do:
    that is not checked. -/
theorem DescriptorSet.generate_jsonKeys {settings : Settings} {targets : Option (List String)}
    {s : DescriptorSet} {files : List GeneratedFile} (h : s.generate settings targets = .ok files) :
    ∃ t modules, NameTable.ofFiles settings s = .ok t ∧
      generatedModules settings targets t s.files = .ok modules ∧ moduleFiles modules = .ok files ∧
      ∀ e ∈ s.emittedMessages settings targets t, s.NamesOnce e.1 →
        ∃ model, (itemsModels (modules.flatMap (·.2))).filter (·.typeName = e.1) = [model] ∧
          (∃ file ∈ files, ∃ code, file.Shows code ∧ ∀ p ∈ model.places, p.Keyed code) ∧
          (model.places.map (·.jsonKeys)).Perm
            ((e.2.fields.filter e.2.hasPlace).map (·.jsonKeys)) ∧
          ((model.places.map (·.jsonKeys)).Pairwise List.Disjoint ↔
            ((e.2.fields.filter e.2.hasPlace).map (·.jsonKeys)).Pairwise List.Disjoint) := by
  obtain ⟨t, modules, ht, hmodules, hfiles⟩ := DescriptorSet.generate_ok h
  refine ⟨t, modules, ht, hmodules, hfiles, fun e he once => ?_⟩
  obtain ⟨model, hunique, hkeeps, file, hfile, code, hshows, hcode⟩ :=
    moduleFiles_keeps ht hmodules hfiles he once
  refine ⟨model, hunique, ⟨file, hfile, code, hshows, fun p hp => ?_⟩, hkeeps.jsonKeys,
    hkeeps.jsonKeys.pairwise_iff fun hdisjoint => hdisjoint.symm⟩
  exact (MessageModel.keyed hp).within hcode

def int32Field (name : String) (number : Int32) : FieldDescriptor :=
  { name := some name, number := some number, type := some (FieldKind.scalar .int32).code }

/-- A message with two fields of one JSON name. -/
def sizedCap : MessageDescriptor :=
  { name := some "Cap", fields := [int32Field "hatSize" 1, int32Field "hat_size" 2] }

def sizedHat : MessageDescriptor :=
  { name := some "Hat"
    fields :=
      [int32Field "hat_size" 1, { int32Field "brim" 2 with jsonName := some "edge", oneofIndex := some 0 }]
    oneofs := [{ name := some "shape" }] }

def hatRack : DescriptorSet :=
  { files :=
      [ { name := some "rack.proto"
          package := some "rack"
          messageTypes := [sizedHat, sizedCap]
          dialect := some "proto3" } ] }

theorem distinct_hatRack : hatRack.HasDistinctDeclarations := by
  have hmessages : hatRack.allMessages.map (·.1) = [".rack.Hat", ".rack.Cap"] := by cbv
  have henums : hatRack.allEnums.map (·.1) = [] := by cbv
  rw [DescriptorSet.HasDistinctDeclarations, hmessages, henums]
  decide

theorem exists_generate_hatRack : ∃ files, hatRack.generate {} none = .ok files := by
  refine DescriptorSet.generate_of_isWritable ?_
  unfold hatRack sizedHat sizedCap
  simp only [DescriptorSet.isWritable, NameTable.ofFiles, NameTable.addFiles, NameTable.addFile,
    NameTable.addMessages_cons, NameTable.addMessages_nil]
  decide +kernel

theorem mem_emittedMessages_hatRack {t : NameTable} (h : NameTable.ofFiles {} hatRack = .ok t) :
    (".rack.Hat", sizedHat) ∈ hatRack.emittedMessages {} none t ∧
      (".rack.Cap", sizedCap) ∈ hatRack.emittedMessages {} none t := by
  have hfile : hatRack.files[0] ∈ hatRack.generatedFiles {} none :=
    List.mem_filter.2 ⟨List.mem_cons_self, by decide +kernel⟩
  have hemitted := @DescriptorSet.mem_emittedMessages_of_declared _ _ _ _ h distinct_hatRack _ hfile
  exact ⟨hemitted List.mem_cons_self fun _ _ => rfl,
    hemitted (List.mem_cons_of_mem _ List.mem_cons_self) fun _ _ => rfl⟩

/-- The places of a message whose fields have names of their own share no key. -/
theorem generate_jsonKeys_sizedHat : ∃ files t modules model,
    hatRack.generate {} none = .ok files ∧ NameTable.ofFiles {} hatRack = .ok t ∧
      moduleFiles modules = .ok files ∧
      (itemsModels (modules.flatMap (·.2))).filter (·.typeName = ".rack.Hat") = [model] ∧
      (model.places.map (·.jsonKeys)).Perm [["hatSize", "hat_size"], ["edge", "brim"]] ∧
      (model.places.map (·.jsonKeys)).Pairwise List.Disjoint := by
  obtain ⟨files, hfiles⟩ := exists_generate_hatRack
  obtain ⟨t, modules, ht, -, hmodules, hall⟩ := DescriptorSet.generate_jsonKeys hfiles
  obtain ⟨model, hmodel, -, hkeys, hiff⟩ :=
    hall _ (mem_emittedMessages_hatRack ht).1 (distinct_hatRack.once _)
  have hnames : (sizedHat.fields.filter sizedHat.hasPlace).map (·.jsonKeys) =
      [["hatSize", "hat_size"], ["edge", "brim"]] := by decide +kernel
  rw [hnames] at hkeys hiff
  exact ⟨files, t, modules, model, hfiles, ht, hmodules, hmodel, hkeys, hiff.2 (by simp)⟩

/-- A schema is generated although two fields of a message share a JSON name, under which both
    are written; and in JSON the value of one of them is lost. -/
theorem generate_sizedCap : (∃ files t modules model,
    hatRack.generate {} none = .ok files ∧ NameTable.ofFiles {} hatRack = .ok t ∧
      generatedModules {} none t hatRack.files = .ok modules ∧ moduleFiles modules = .ok files ∧
      (".rack.Cap", sizedCap) ∈ hatRack.emittedMessages {} none t ∧
      (itemsModels (modules.flatMap (·.2))).filter (·.typeName = ".rack.Cap") = [model] ∧
      (model.places.map (·.jsonKeys)).Perm [["hatSize", "hatSize"], ["hatSize", "hat_size"]] ∧
      ¬ (model.places.map (·.jsonKeys)).Pairwise List.Disjoint) ∧
    Message.toJson capSizes () (capOf 6 7) =
      .ok (.object [("hatSize", Scalar.toJson .int32 (7 : Int32))]) ∧
    Message.mergeJson capSizes () (.object [("hatSize", Scalar.toJson .int32 (7 : Int32))])
      (capSizes ()).default = (.ok (), capOf 7 7) := by
  refine ⟨?_, by cbv, rfl⟩
  obtain ⟨files, hfiles⟩ := exists_generate_hatRack
  obtain ⟨t, modules, ht, hmodules, h⟩ := DescriptorSet.generate_ok hfiles
  have hemitted := (mem_emittedMessages_hatRack ht).2
  obtain ⟨model, hmodel, hkeeps⟩ := generatedModules_keeps ht hmodules hemitted (distinct_hatRack.once _)
  have hkeys := hkeeps.jsonKeys
  have hnames : (sizedCap.fields.filter sizedCap.hasPlace).map (·.jsonKeys) =
      [["hatSize", "hatSize"], ["hatSize", "hat_size"]] := by decide +kernel
  rw [hnames] at hkeys
  refine ⟨files, t, modules, model, hfiles, ht, hmodules, h, hemitted, hmodel, hkeys, ?_⟩
  rw [hkeys.pairwise_iff fun hdisjoint => hdisjoint.symm]
  simp

end Protobuf
