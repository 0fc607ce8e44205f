import Protobuf.Proofs.Generate.Contents

/-! # Code that can be written

Items are written to files unless a stray word stands in their code.  Whether one does, does
not depend on the order of a message's places.

* `MessageModel.isWritable`, `Item.isWritable`: no stray word stands in what is made of the
  parts of a message, and of an item.
* `DescriptorSet.isWritable`: the items of a schema can be made and written.
* `DescriptorSet.generate_of_isWritable`: such a schema is generated.
-/

namespace Protobuf

namespace Code

theorem anyStrayWord_eq_any (parts : List Code) : anyStrayWord parts = parts.any (·.hasStrayWord) := by
  induction parts with
  | nil => rfl
  | cons c rest ih => rw [anyStrayWord, ih, List.any_cons]

theorem anyStrayWord_map_eq_false {α : Type} {f : α → Code} {as : List α}
    (h : ∀ a ∈ as, (f a).hasStrayWord = false) : anyStrayWord (as.map f) = false := by
  rw [anyStrayWord_eq_any, List.any_map, List.any_eq_false]
  intro a ha
  simpa using h a ha

end Code

/-! ## Messages -/

def FieldPlace.isWritable (p : FieldPlace) : Bool :=
  !p.writeCode.hasStrayWord && !p.mergeCode.hasStrayWord && !p.toJsonCode.hasStrayWord

namespace MessageModel

def isWritable (m : MessageModel) : Bool :=
  !m.structCode.hasStrayWord && !m.messageCode.hasStrayWord && !(Code.ident m.ident).hasStrayWord &&
    (m.fields.all fun f => (FieldPlace.field f).isWritable && !f.mergeJsonCode.hasStrayWord) &&
    m.oneofs.all fun o =>
      (o.variants.all fun v => (FieldPlace.member o v).isWritable) && !o.mergeJsonCode.hasStrayWord

theorem isWritable_place {m : MessageModel} (h : m.isWritable) {p : FieldPlace} (hp : p ∈ m.places) :
    p.isWritable := by
  simp only [isWritable, Bool.and_eq_true, List.all_eq_true] at h
  obtain ⟨⟨-, hfields⟩, honeofs⟩ := h
  rcases mem_places_iff.1 hp with ⟨f, hf, rfl⟩ | ⟨o, ho, v, hv, rfl⟩
  · exact (hfields f hf).1
  · exact (honeofs o ho).1 v hv

/-- A message whose parts are free of stray words is, in whichever order they stand. -/
theorem hasStrayWord_code {m : MessageModel} (h : m.isWritable) : m.code.hasStrayWord = false := by
  have hplaces : ∀ p ∈ m.places, p.writeCode.hasStrayWord = false ∧
      p.mergeCode.hasStrayWord = false ∧ p.toJsonCode.hasStrayWord = false := by
    intro p hp
    have := isWritable_place h hp
    simpa [FieldPlace.isWritable, and_assoc] using this
  simp only [isWritable, Bool.and_eq_true, Bool.not_eq_true', List.all_eq_true] at h
  obtain ⟨⟨⟨⟨hstruct, hmessage⟩, hident⟩, hfields⟩, honeofs⟩ := h
  have hwrite := Code.anyStrayWord_map_eq_false fun p hp => (hplaces p hp).1
  have hmerge := Code.anyStrayWord_map_eq_false fun p hp => (hplaces p hp).2.1
  have htoJson := Code.anyStrayWord_map_eq_false fun p hp => (hplaces p hp).2.2
  have hmergeFields := Code.anyStrayWord_map_eq_false fun f hf => (hfields f hf).2
  have hmergeOneofs := Code.anyStrayWord_map_eq_false fun o ho => (honeofs o ho).2
  have hword : m.ident.text ∉ Code.strayWords := by simpa [Code.hasStrayWord] using hident
  have hwire : m.wireCode.hasStrayWord = false := by
    rw [wireCode]
    cases m.places.isEmpty <;>
      simp [Code.hasStrayWord, Code.anyStrayWord, Code.parens, Code.braces, hword, hwrite, hmerge]
  have hjson : m.jsonCode.hasStrayWord = false := by
    rw [jsonCode, toJsonFunction, mergeJsonFunction]
    cases m.places.isEmpty <;>
      simp [Code.hasStrayWord, Code.anyStrayWord, Code.parens, Code.braces, hword, htoJson,
        hmergeFields, hmergeOneofs]
  simp [code, Code.hasStrayWord, Code.anyStrayWord, hstruct, hmessage, hwire, hjson]

end MessageModel

/-! ## Items -/

mutual

def Item.isWritable : Item → Bool
  | .message m => m.isWritable
  | .oneof o => !o.enumCode.hasStrayWord
  | .enumeration e => !e.code.hasStrayWord
  | .module ident items => !(Code.ident ident).hasStrayWord && itemsWritable items

def itemsWritable : List Item → Bool
  | [] => true
  | i :: rest => i.isWritable && itemsWritable rest

end

mutual

theorem Item.hasStrayWord_code : {i : Item} → i.isWritable → i.code.hasStrayWord = false
  | .message m, h => by
    rw [Item.isWritable] at h
    rw [Item.code]
    exact MessageModel.hasStrayWord_code h
  | .oneof o, h => by
    rw [Item.isWritable, Bool.not_eq_true'] at h
    rw [Item.code, h]
  | .enumeration e, h => by
    rw [Item.isWritable, Bool.not_eq_true'] at h
    rw [Item.code, h]
  | .module ident items, h => by
    rw [Item.isWritable, Bool.and_eq_true, Bool.not_eq_true'] at h
    have hitems := anyStrayWord_itemsCode h.2
    have hword : ident.text ∉ Code.strayWords := by simpa [Code.hasStrayWord] using h.1
    simp [Item.code, Code.hasStrayWord, Code.anyStrayWord, Code.braces, hword, hitems]

theorem anyStrayWord_itemsCode : {items : List Item} → itemsWritable items →
    Code.anyStrayWord (itemsCode items) = false
  | [], _ => by rw [itemsCode, Code.anyStrayWord]
  | i :: rest, h => by
    rw [itemsWritable, Bool.and_eq_true] at h
    rw [itemsCode, Code.anyStrayWord, i.hasStrayWord_code h.1, anyStrayWord_itemsCode h.2]
    rfl

end

/-! ## Files -/

def isDeclarable (name : String) : Bool :=
  match moduleDeclaration name with
  | .ok code => !code.hasStrayWord
  | .error _ => false

def modulesWritable (modules : List (String × List Item)) : Bool :=
  modules.all fun (name, items) => isDeclarable name && itemsWritable items

theorem generatedFile_ok (name : String) {code : Code} (h : code.hasStrayWord = false) :
    ∃ file, generatedFile name code = .ok file := by
  rw [generatedFile, h]
  exact ⟨_, rfl⟩

theorem exists_moduleDeclaration {name : String} (h : isDeclarable name) :
    ∃ code, moduleDeclaration name = .ok code ∧ code.hasStrayWord = false := by
  unfold isDeclarable at h
  split at h
  · rename_i code hcode
    exact ⟨code, hcode, by simpa using h⟩
  · cases h

theorem moduleFiles_ok {modules : List (String × List Item)} (h : modulesWritable modules) :
    ∃ files, moduleFiles modules = .ok files := by
  simp only [modulesWritable, List.all_eq_true, Bool.and_eq_true] at h
  obtain ⟨files, hfiles, -⟩ := exists_mapM_eq_ok (P := fun _ => True)
    (f := fun (e : String × List Item) => generatedFile (e.1 ++ ".rs") (.sequence (itemsCode e.2)))
    fun e he => by
      have hcode : (Code.sequence (itemsCode e.2)).hasStrayWord = false :=
        anyStrayWord_itemsCode (h e he).2
      obtain ⟨file, hfile⟩ := generatedFile_ok (e.1 ++ ".rs") hcode
      exact ⟨file, hfile, trivial⟩
  obtain ⟨declarations, hdeclarations, hwords⟩ := exists_mapM_eq_ok
    (f := fun (e : String × List Item) => moduleDeclaration e.1)
    fun e he => exists_moduleDeclaration (h e he).1
  have hindex : (Code.sequence declarations).hasStrayWord = false := by
    rw [Code.hasStrayWord, ← List.map_id declarations]
    exact Code.anyStrayWord_map_eq_false hwords
  obtain ⟨index, hindex⟩ := generatedFile_ok "mod.rs" hindex
  refine ⟨files ++ [index], ?_⟩
  simp only [moduleFiles, hfiles, hdeclarations, bind, Except.bind, hindex]
  rfl

def DescriptorSet.isWritable (s : DescriptorSet) (settings : Settings)
    (targets : Option (List String)) : Bool :=
  match NameTable.ofFiles settings s with
  | .ok t =>
    match generatedModules settings targets t s.files with
    | .ok modules => modulesWritable modules
    | .error _ => false
  | .error _ => false

theorem DescriptorSet.generate_of_isWritable {s : DescriptorSet} {settings : Settings}
    {targets : Option (List String)} (h : s.isWritable settings targets) :
    ∃ files, s.generate settings targets = .ok files := by
  unfold isWritable at h
  split at h
  · rename_i t ht
    split at h
    · rename_i modules hmodules
      obtain ⟨files, hfiles⟩ := moduleFiles_ok h
      exact ⟨files, by simp only [generate, ht, hmodules, hfiles, bind, Except.bind]⟩
    · cases h
  · cases h

end Protobuf
