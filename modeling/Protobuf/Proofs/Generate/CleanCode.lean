import Protobuf.Generate.Files
import Protobuf.Proofs.Names.Legality

/-! # Code of usable identifiers

The code of a message or an enum holds identifiers of three kinds: those that are fixed, those
of the declaration itself and those on the way to other types.  If these can be used, then no
stray word stands in the code.

* `Code.IsClean`: code without stray words, and what it is made of.
* `FieldModel.IsClean`, `OneofModel.IsClean`, `MessageModel.IsClean`, `EnumModel.IsClean`: models
  all of whose identifiers can be used.
* `MessageModel.isClean_code`, `OneofModel.isClean_enumCode`, `EnumModel.isClean_code`: their code.
-/

namespace Protobuf

namespace Code

/-- No stray word stands in place of a name. -/
def IsClean (c : Code) : Prop := c.hasStrayWord = false

theorem anyStrayWord_eq_false {parts : List Code} :
    anyStrayWord parts = false ↔ ∀ c ∈ parts, c.IsClean := by
  induction parts with
  | nil => simp [anyStrayWord]
  | cons c parts ih => rw [anyStrayWord, Bool.or_eq_false_iff, ih, List.forall_mem_cons, IsClean]

@[simp] theorem isClean_fixed (text : String) : (fixed text).IsClean := by
  rw [IsClean, hasStrayWord] <;> simp

@[simp] theorem isClean_literal (value : String) : (literal value).IsClean := by
  rw [IsClean, hasStrayWord] <;> simp

@[simp] theorem isClean_integer (n : Int) : (integer n).IsClean := isClean_fixed _

@[simp] theorem isClean_ident {i : Ident} (h : i.IsUsable) : (ident i).IsClean := by
  rw [IsClean, hasStrayWord, ← Bool.not_eq_true, List.contains_iff_mem]
  exact h.not_stray

@[simp] theorem isClean_group {d : Delimiter} {body : List Code} :
    (group d body).IsClean ↔ ∀ c ∈ body, c.IsClean := by
  rw [IsClean, hasStrayWord, anyStrayWord_eq_false]

@[simp] theorem isClean_sequence {parts : List Code} :
    (sequence parts).IsClean ↔ ∀ c ∈ parts, c.IsClean := by
  rw [IsClean, hasStrayWord, anyStrayWord_eq_false]

@[simp] theorem isClean_parens {body : List Code} : (parens body).IsClean ↔ ∀ c ∈ body, c.IsClean :=
  isClean_group

@[simp] theorem isClean_brackets {body : List Code} :
    (brackets body).IsClean ↔ ∀ c ∈ body, c.IsClean := isClean_group

@[simp] theorem isClean_braces {body : List Code} : (braces body).IsClean ↔ ∀ c ∈ body, c.IsClean :=
  isClean_group

theorem isClean_ite {p : Prop} [Decidable p] {b c : Code} (hb : b.IsClean) (hc : c.IsClean) :
    (if p then b else c).IsClean := by
  split
  · exact hb
  · exact hc

end Code

/-! ## Phrases -/

section

variable {type value key function place : Code}

@[simp] theorem isClean_someCode : (someCode value).IsClean ↔ value.IsClean := by simp [someCode]

@[simp] theorem isClean_optionType : (optionType type).IsClean ↔ type.IsClean := by simp [optionType]

@[simp] theorem isClean_boxType : (boxType type).IsClean ↔ type.IsClean := by simp [boxType]

@[simp] theorem isClean_boxCode : (boxCode value).IsClean ↔ value.IsClean := by simp [boxCode]

@[simp] theorem isClean_defaultCode : defaultCode.IsClean := Code.isClean_fixed _

@[simp] theorem isClean_listType : (listType type).IsClean ↔ type.IsClean := by simp [listType]

@[simp] theorem isClean_mapType : (mapType key value).IsClean ↔ key.IsClean ∧ value.IsClean := by
  simp [mapType]

@[simp] theorem isClean_selfField {i : Ident} (h : i.IsUsable) : (selfField i).IsClean := by
  simp [selfField, h]

@[simp] theorem isClean_call {arguments : List Code} :
    (call function arguments).IsClean ↔ function.IsClean ∧ ∀ a ∈ arguments, a.IsClean := by
  cases arguments with
  | nil => simp [call]
  | cons a rest =>
    have hrest : (∀ c ∈ rest.flatMap fun a => [Code.fixed ",", a], c.IsClean) ↔
        ∀ a ∈ rest, a.IsClean := by
      induction rest with
      | nil => simp
      | cons b rest ih => simp only [List.flatMap_cons, List.forall_mem_append, ih]; simp
    simp only [call, Code.isClean_sequence, List.forall_mem_cons, Code.isClean_parens, hrest]
    simp

@[simp] theorem isClean_initializeCode : (initializeCode value).IsClean ↔ value.IsClean := by
  simp [initializeCode]

@[simp] theorem isClean_docCode (lines : List String) : (docCode lines).IsClean := by
  simp [docCode]

/-! ## Values -/

namespace Scalar

@[simp] theorem isClean_typeCode (k : Scalar) : k.typeCode.IsClean := by
  cases k <;> exact Code.isClean_fixed _

@[simp] theorem isClean_placeArgument (k : Scalar) (h : place.IsClean) :
    (k.placeArgument place).IsClean := by
  unfold placeArgument
  split <;> simp [h]

@[simp] theorem isClean_referenceArgument (k : Scalar) (h : place.IsClean) :
    (k.referenceArgument place).IsClean := by
  unfold referenceArgument
  split <;> simp [h]

@[simp] theorem isClean_isSetCode (k : Scalar) (h : place.IsClean) : (k.isSetCode place).IsClean := by
  cases k <;> simp [isSetCode, h]

end Scalar

namespace ValueForm

def IsClean : ValueForm → Prop
  | scalar _ => True
  | enumeration path => path.code.IsClean
  | message path partialPath _ => path.code.IsClean ∧ partialPath.code.IsClean

variable {v : ValueForm} {writer number reader reference : Code}

theorem isClean_typeCode (h : v.IsClean) : v.typeCode.IsClean := by
  cases v with
  | scalar k => exact k.isClean_typeCode
  | enumeration path => exact Code.isClean_fixed _
  | message path partialPath boxed => exact h.1

theorem isClean_storedType (h : v.IsClean) : v.storedType.IsClean := by
  unfold storedType
  split
  · exact isClean_boxType.2 h.1
  · exact isClean_typeCode h

theorem isClean_partialType (h : v.IsClean) : v.partialType.IsClean := by
  unfold partialType
  split
  · exact isClean_boxType.2 h.2
  · exact h.2
  · exact isClean_typeCode h

theorem isClean_ofPartial (h : v.IsClean) (hvalue : value.IsClean) : (v.ofPartial value).IsClean := by
  unfold ofPartial
  split
  · simp [h.1, hvalue]
  · simp [h.1, hvalue]
  · exact hvalue

theorem isClean_store (hvalue : value.IsClean) : (v.store value).IsClean := by
  unfold store
  split
  · exact isClean_boxCode.2 hvalue
  · exact hvalue

theorem isClean_derefCode (hvalue : value.IsClean) : (v.derefCode value).IsClean := by
  unfold derefCode
  split
  · simp [hvalue]
  · exact hvalue

theorem isClean_derefMutCode (hvalue : value.IsClean) : (v.derefMutCode value).IsClean := by
  unfold derefMutCode
  split
  · simp [hvalue]
  · exact hvalue

theorem isClean_writeReference (hwriter : writer.IsClean) (hnumber : number.IsClean)
    (hreference : reference.IsClean) : (v.writeReference writer number reference).IsClean := by
  unfold writeReference
  split
  · simp [methodOf, hwriter, hnumber, hreference]
  · simp [hwriter, hnumber, isClean_derefCode hreference]

theorem isClean_writePlace (hwriter : writer.IsClean) (hnumber : number.IsClean)
    (hplace : place.IsClean) : (v.writePlace writer number place).IsClean := by
  unfold writePlace
  split <;> simp [methodOf, hwriter, hnumber, hplace]

theorem isClean_isSetCode (hplace : place.IsClean) : (v.isSetCode place).IsClean := by
  unfold isSetCode
  split <;> simp [hplace]

theorem isClean_readCode (hreader : reader.IsClean) : (v.readCode reader).IsClean := by
  unfold readCode
  split <;> simp [methodOf, hreader]

theorem isClean_jsonOfReference (h : v.IsClean) (hreference : reference.IsClean) :
    (v.jsonOfReference reference).IsClean := by
  cases v with
  | scalar k => simp [jsonOfReference, jsonEncoder, hreference]
  | enumeration path =>
    have hpath : path.code.IsClean := h
    simp [jsonOfReference, jsonEncoder, forType, hreference, hpath]
  | message path partialPath boxed =>
    simp [jsonOfReference, jsonEncoder, isClean_derefCode hreference]

theorem isClean_jsonOfPlace (h : v.IsClean) (hplace : place.IsClean) : (v.jsonOfPlace place).IsClean := by
  cases v with
  | scalar k => simp [jsonOfPlace, jsonEncoder, hplace]
  | enumeration path =>
    have hpath : path.code.IsClean := h
    simp [jsonOfPlace, jsonEncoder, forType, hplace, hpath]
  | message path partialPath boxed => simp [jsonOfPlace, jsonEncoder, hplace]

theorem isClean_collectionJson (plain fallible : String) (h : v.IsClean) (hplace : place.IsClean) :
    (collectionJson plain fallible v place).IsClean := by
  unfold collectionJson
  split
  · simp [jsonEncoder, forType, hplace, h.1]
  · simp [jsonEncoder, hplace, isClean_jsonOfReference h (Code.isClean_fixed "value")]

theorem isClean_decoderCode (h : v.IsClean) : v.decoderCode.IsClean := by
  cases v with
  | scalar k => simp [decoderCode, jsonDecoder]
  | enumeration path =>
    have hpath : path.code.IsClean := h
    simp [decoderCode, jsonDecoder, forType, hpath]
  | message path partialPath boxed => simp [decoderCode, jsonDecoder, forType, h.1]

theorem isClean_ofJsonCode (h : v.IsClean) : v.ofJsonCode.IsClean := by
  simp [ofJsonCode, isClean_decoderCode h]

end ValueForm

end

/-! ## Fields -/

structure FieldModel.IsClean (f : FieldModel) : Prop where
  ident : f.ident.IsUsable
  value : f.value.IsClean

structure VariantModel.IsClean (v : VariantModel) : Prop where
  ident : v.ident.IsUsable
  field : v.field.IsClean
  inner : v.inner.IsClean

structure OneofModel.IsClean (o : OneofModel) : Prop where
  field : o.field.IsUsable
  module : o.module.IsUsable
  ident : o.ident.IsUsable
  variants : ∀ v ∈ o.variants, v.IsClean

section

variable {f : FieldModel} {o : OneofModel} {v : VariantModel} {type value target reader payload : Code}

theorem isClean_structField {doc : List String} {ident : Ident} (hident : ident.IsUsable)
    (htype : type.IsClean) : (structField doc ident type).IsClean := by
  simp [structField, hident, htype]

theorem isClean_overlayCode {ident : Ident} (hident : ident.IsUsable) (hvalue : value.IsClean) :
    (overlayCode ident value).IsClean := by
  simp [overlayCode, hident, hvalue]

theorem isClean_readMessageCode (hreader : reader.IsClean) (htarget : target.IsClean) :
    (readMessageCode reader target).IsClean := by
  simp [readMessageCode, hreader, htarget]

theorem isClean_freshMessageCode (htype : type.IsClean) : (freshMessageCode type).IsClean := by
  simp [freshMessageCode, htype, isClean_readMessageCode]

theorem isClean_orDefaultCode {ident : Ident} (hident : ident.IsUsable) :
    (orDefaultCode ident).IsClean := by
  simp [orDefaultCode, hident]

theorem isClean_insertMember {jsonName : String} (hvalue : value.IsClean) :
    (insertMember jsonName value).IsClean := by
  simp [insertMember, hvalue]

theorem isClean_ifMember {body : List Code} (hbody : ∀ c ∈ body, c.IsClean) :
    (ifMember f body).IsClean := by
  simpa [ifMember] using hbody

namespace FieldModel

theorem isClean_numberCode (f : FieldModel) : f.numberCode.IsClean := Code.isClean_integer _

theorem isClean_typeCode (h : f.IsClean) : f.typeCode.IsClean := by
  unfold typeCode
  split <;> simp [ValueForm.isClean_storedType h.value]

theorem isClean_partialTypeCode (h : f.IsClean) : f.partialTypeCode.IsClean := by
  unfold partialTypeCode
  split <;> simp [ValueForm.isClean_partialType h.value]

theorem isClean_ofPartial (h : f.IsClean) : f.ofPartial.IsClean := by
  have hvalue := h.value
  have hstored : (f.value.ofPartial "value").IsClean :=
    ValueForm.isClean_ofPartial hvalue (Code.isClean_fixed _)
  unfold ofPartial
  split
  · exact hstored
  · exact isClean_someCode.2 hstored
  · rename_i heq
    rw [heq] at hvalue
    simp [hvalue.1]
  · rename_i heq
    rw [heq] at hvalue
    simp [hvalue.1]
  · exact Code.isClean_fixed _

theorem isClean_writeCode (h : f.IsClean) : f.writeCode.IsClean := by
  have hplace := isClean_selfField h.ident
  have hnumber := f.isClean_numberCode
  unfold writeCode
  split
  · simp [ValueForm.isClean_isSetCode, ValueForm.isClean_writePlace, hplace, hnumber]
  · simp [ValueForm.isClean_writeReference, hplace, hnumber]
  · split
    · simp [methodOf, hplace, hnumber]
    · simp [ValueForm.isClean_writeReference, hplace, hnumber]
  · simp [ValueForm.isClean_writeReference, hplace, hnumber]

theorem isClean_readEntryCode (h : f.IsClean) (key : Scalar) : (readEntryCode f key).IsClean := by
  have htype := ValueForm.isClean_typeCode h.value
  unfold readEntryCode
  split <;> simp [isClean_readMessageCode, ValueForm.isClean_readCode, htype, h.ident]

theorem isClean_mergeCode (h : f.IsClean) : f.mergeCode.IsClean := by
  have hplace := isClean_selfField h.ident
  have htype := ValueForm.isClean_typeCode h.value
  unfold mergeCode
  split
  · simp [ValueForm.isClean_readCode, hplace]
  · simp [isClean_readMessageCode, ValueForm.isClean_derefMutCode, isClean_orDefaultCode h.ident]
  · simp [ValueForm.isClean_readCode, hplace]
  · rename_i heq
    rw [heq] at htype
    simp [isClean_freshMessageCode htype, hplace]
  · split <;> simp [methodOf, ValueForm.isClean_readCode, hplace]
  · exact isClean_readEntryCode h _

theorem isClean_toJsonCode (h : f.IsClean) : f.toJsonCode.IsClean := by
  have hplace := isClean_selfField h.ident
  have hcollection := fun plain fallible =>
    ValueForm.isClean_collectionJson plain fallible h.value hplace
  unfold toJsonCode
  split
  · simp [ValueForm.isClean_isSetCode, isClean_insertMember, ValueForm.isClean_jsonOfPlace h.value,
      hplace]
  · simp [isClean_insertMember, ValueForm.isClean_jsonOfReference h.value, hplace]
  · simp [isClean_insertMember, hcollection, hplace]
  · simp [isClean_insertMember, hcollection, hplace]

theorem isClean_mergeJsonCode (h : f.IsClean) : f.mergeJsonCode.IsClean := by
  have hplace := isClean_selfField h.ident
  have hdecoder := ValueForm.isClean_decoderCode h.value
  have htype := ValueForm.isClean_typeCode h.value
  have hvalue := ValueForm.isClean_ofJsonCode h.value
  unfold mergeJsonCode
  refine isClean_ifMember ?_
  rw [List.forall_mem_singleton]
  split
  · simp [hplace, hvalue]
  · simp [jsonDecoder, ValueForm.isClean_derefMutCode, isClean_orDefaultCode h.ident]
  · simp [hplace, hvalue]
  · simp [jsonDecoder, hplace, hdecoder]
  · simp [jsonDecoder, forType, hplace, hdecoder, htype]

end FieldModel

/-! ## Oneofs -/

namespace OneofModel

theorem isClean_pathCode (h : o.IsClean) : o.pathCode.IsClean := by
  simp [pathCode, h.module, h.ident]

theorem isClean_typeCode (h : o.IsClean) : o.typeCode.IsClean :=
  isClean_optionType.2 (isClean_pathCode h)

theorem isClean_memberCode (h : o.IsClean) (hv : v.IsClean) (hpayload : payload.IsClean) :
    (o.memberCode v payload).IsClean := by
  simp [memberCode, isClean_pathCode h, hv.ident, hpayload]

theorem isClean_enumCode (h : o.IsClean) : o.enumCode.IsClean := by
  have hvariants : ∀ v ∈ o.variants, v.ident.IsUsable ∧ v.inner.typeCode.IsClean := fun v hv =>
    ⟨(h.variants v hv).ident, FieldModel.isClean_typeCode (h.variants v hv).inner⟩
  simp only [enumCode, Code.isClean_sequence, Code.isClean_braces, List.forall_mem_cons,
    List.forall_mem_map]
  simp +contextual [h.ident, hvariants]

theorem isClean_mergeCode (h : o.IsClean) (hv : v.IsClean) : (o.mergeCode v).IsClean := by
  have hplace := isClean_selfField h.field
  have htype := ValueForm.isClean_typeCode hv.field.value
  unfold mergeCode
  split
  · rename_i heq
    rw [heq] at htype
    simp [hplace, isClean_memberCode h hv, isClean_readMessageCode, ValueForm.isClean_derefMutCode,
      isClean_freshMessageCode htype, ValueForm.isClean_store]
  · simp [hplace, isClean_memberCode h hv, ValueForm.isClean_readCode]

theorem isClean_mergeJsonCode (h : o.IsClean) : o.mergeJsonCode.IsClean := by
  have hvariants : ∀ v ∈ o.variants,
      (o.memberCode v (v.field.value.store v.field.value.ofJsonCode)).IsClean :=
    fun v hv => isClean_memberCode h (h.variants v hv)
      (ValueForm.isClean_store (ValueForm.isClean_ofJsonCode (h.variants v hv).field.value))
  simp only [mergeJsonCode, Code.isClean_sequence, Code.isClean_braces, List.forall_mem_cons,
    List.forall_mem_map]
  simp +contextual [h.field, isClean_pathCode h, hvariants, isClean_ifMember]

end OneofModel

/-! ## Messages -/

structure MessageModel.IsClean (m : MessageModel) : Prop where
  ident : m.ident.IsUsable
  partialIdent : m.partialIdent.IsUsable
  fields : ∀ f ∈ m.fields, f.IsClean
  oneofs : ∀ o ∈ m.oneofs, o.IsClean

def FieldPlace.IsClean : FieldPlace → Prop
  | field f => f.IsClean
  | member o v => o.IsClean ∧ v.IsClean

namespace FieldPlace

variable {p : FieldPlace}

theorem isClean_writeCode (h : p.IsClean) : p.writeCode.IsClean := by
  cases p with
  | field f => exact FieldModel.isClean_writeCode h
  | member o v =>
    simp [writeCode, OneofModel.isClean_memberCode h.1 h.2, ValueForm.isClean_writeReference,
      FieldModel.isClean_numberCode, h.1.field]

theorem isClean_mergeCode (h : p.IsClean) : p.mergeCode.IsClean := by
  cases p with
  | field f =>
    have hf : f.IsClean := h
    simp [mergeCode, FieldModel.isClean_numberCode, FieldModel.isClean_mergeCode hf]
  | member o v =>
    simp [mergeCode, FieldModel.isClean_numberCode, OneofModel.isClean_mergeCode h.1 h.2]

theorem isClean_toJsonCode (h : p.IsClean) : p.toJsonCode.IsClean := by
  cases p with
  | field f => exact FieldModel.isClean_toJsonCode h
  | member o v =>
    simp [toJsonCode, OneofModel.isClean_memberCode h.1 h.2, isClean_insertMember,
      ValueForm.isClean_jsonOfReference h.2.field.value, h.1.field]

end FieldPlace

namespace MessageModel

variable {m : MessageModel}

theorem isClean_places (h : m.IsClean) : ∀ p ∈ m.places, p.IsClean := by
  intro p hp
  rw [places, (List.mergeSort_perm _ _).mem_iff, List.mem_append] at hp
  rcases hp with hp | hp
  · obtain ⟨f, hf, rfl⟩ := List.mem_map.1 hp
    exact h.fields f hf
  · obtain ⟨o, ho, hp⟩ := List.mem_flatMap.1 hp
    obtain ⟨v, hv, rfl⟩ := List.mem_map.1 hp
    exact ⟨h.oneofs o ho, (h.oneofs o ho).variants v hv⟩

theorem isClean_structCode (h : m.IsClean) : m.structCode.IsClean := by
  have hfields : ∀ f ∈ m.fields, ∀ doc, (structField doc f.ident f.typeCode).IsClean ∧
      (structField doc f.ident f.partialTypeCode).IsClean := fun f hf doc =>
    ⟨isClean_structField (h.fields f hf).ident (FieldModel.isClean_typeCode (h.fields f hf)),
      isClean_structField (h.fields f hf).ident (FieldModel.isClean_partialTypeCode (h.fields f hf))⟩
  have honeofs : ∀ o ∈ m.oneofs, ∀ doc, (structField doc o.field o.typeCode).IsClean :=
    fun o ho doc => isClean_structField (h.oneofs o ho).field (OneofModel.isClean_typeCode (h.oneofs o ho))
  simp only [structCode, structDerives, Code.isClean_sequence, Code.isClean_braces,
    List.forall_mem_cons, List.forall_mem_append, List.forall_mem_map]
  simp +contextual [h.ident, h.partialIdent, hfields, honeofs]

theorem isClean_initializeFunction (h : m.IsClean) : m.initializeFunction.IsClean := by
  have hfields : ∀ f ∈ m.fields, (overlayCode f.ident f.ofPartial).IsClean := fun f hf =>
    isClean_overlayCode (h.fields f hf).ident (FieldModel.isClean_ofPartial (h.fields f hf))
  have honeofs : ∀ o ∈ m.oneofs, (overlayCode o.field (someCode "value")).IsClean := fun o ho =>
    isClean_overlayCode (h.oneofs o ho).field (by simp)
  unfold initializeFunction
  split
  · simp [h.partialIdent]
  · simp only [Code.isClean_sequence, Code.isClean_parens, Code.isClean_braces, List.forall_mem_cons,
      List.forall_mem_map]
    simp +contextual [h.partialIdent, hfields, honeofs]

theorem isClean_messageCode (h : m.IsClean) : m.messageCode.IsClean := by
  simp [messageCode, h.ident, h.partialIdent, isClean_initializeFunction h]

theorem isClean_wireCode (h : m.IsClean) : m.wireCode.IsClean := by
  have hplaces := isClean_places h
  simp only [wireCode, Code.isClean_sequence, Code.isClean_parens, Code.isClean_braces,
    List.forall_mem_cons, List.forall_mem_map]
  simp +contextual [h.ident, Code.isClean_ite, hplaces, FieldPlace.isClean_writeCode,
    FieldPlace.isClean_mergeCode]

theorem isClean_toJsonFunction (h : m.IsClean) : m.toJsonFunction.IsClean := by
  have hplaces := isClean_places h
  unfold toJsonFunction
  simp only [Code.isClean_sequence, Code.isClean_braces, List.forall_mem_cons]
  split <;> simp +contextual [hplaces, FieldPlace.isClean_toJsonCode]

theorem isClean_mergeJsonFunction (h : m.IsClean) : m.mergeJsonFunction.IsClean := by
  unfold mergeJsonFunction
  simp only [Code.isClean_sequence, Code.isClean_braces, List.forall_mem_cons]
  split <;> simp +contextual [h.fields, h.oneofs, FieldModel.isClean_mergeJsonCode,
    OneofModel.isClean_mergeJsonCode]

/-- The code of a message whose identifiers can be used is clean. -/
theorem isClean_code (h : m.IsClean) : m.code.IsClean := by
  simp [code, jsonCode, isClean_structCode h, isClean_messageCode h, isClean_wireCode h,
    isClean_toJsonFunction h, isClean_mergeJsonFunction h, h.ident]

end MessageModel

end

/-! ## Enums -/

structure EnumModel.IsClean (e : EnumModel) : Prop where
  ident : e.ident.IsUsable
  values : ∀ v ∈ e.values, v.ident.IsUsable

namespace EnumModel

variable {e : EnumModel}

theorem isClean_variants (h : e.IsClean) : ∀ v ∈ e.variants, v.ident.IsUsable := fun v hv =>
  h.values v (List.mem_of_mem_filter hv)

theorem isClean_selfCode {v : EnumValueModel} (h : v.ident.IsUsable) : v.selfCode.IsClean := by
  simp [EnumValueModel.selfCode, h]

theorem isClean_numberCode (v : EnumValueModel) : v.numberCode.IsClean := Code.isClean_integer _

theorem isClean_lookupFunction {head subject : String} {arms : List Code} (h : ∀ c ∈ arms, c.IsClean) :
    (lookupFunction head subject arms).IsClean := by
  simpa [lookupFunction] using h

theorem isClean_typeCode (h : e.IsClean) : e.typeCode.IsClean := by
  simp only [typeCode, Code.isClean_sequence, Code.isClean_braces, List.forall_mem_cons,
    List.forall_mem_map]
  simp +contextual [h.ident, Code.none, Code.isClean_ite, isClean_variants h, isClean_numberCode]

theorem isClean_foundArm {pattern : Code} {v : EnumValueModel} (hpattern : pattern.IsClean)
    (hv : v.ident.IsUsable) : (foundArm pattern v).IsClean := by
  simp [foundArm, hpattern, isClean_selfCode hv]

theorem isClean_namesCode (h : e.IsClean) : e.namesCode.IsClean := by
  have hvariants := isClean_variants h
  have hnumbers : ∀ c ∈ e.variants.map fun v => foundArm v.numberCode v, c.IsClean :=
    List.forall_mem_map.2 fun v hv => isClean_foundArm (isClean_numberCode v) (hvariants v hv)
  have hnames : ∀ c ∈ e.values.map fun v => foundArm (.literal v.name) v, c.IsClean :=
    List.forall_mem_map.2 fun v hv => isClean_foundArm (Code.isClean_literal _) (h.values v hv)
  have hself : ∀ v ∈ e.variants, v.selfCode.IsClean := fun v hv => isClean_selfCode (hvariants v hv)
  simp only [namesCode, Code.isClean_sequence, Code.isClean_braces, List.forall_mem_cons,
    List.forall_mem_map, isClean_lookupFunction hnumbers, isClean_lookupFunction hnames]
  split <;> simp +contextual [h.ident, hself]

theorem isClean_defaultCode (h : e.IsClean) : e.defaultCode.IsClean := by
  unfold defaultCode
  split
  · simp [Code.none]
  · rename_i v hdefault
    have hv : v ∈ e.variants := by
      rcases Option.or_eq_some_iff.1 hdefault with hfind | ⟨-, hhead⟩
      · exact List.mem_of_find?_eq_some hfind
      · exact List.mem_of_head? hhead
    simp [h.ident, isClean_selfCode (isClean_variants h v hv)]

/-- The code of an enum whose identifiers can be used is clean. -/
theorem isClean_code (h : e.IsClean) : e.code.IsClean := by
  simp [code, isClean_typeCode h, isClean_namesCode h, integerCode, h.ident, isClean_defaultCode h]

end EnumModel

end Protobuf
