import Protobuf.Generate.MessageModel
import Protobuf.Proofs.Names.Numbers

/-! # Places of a message's fields

The model of a message under its own names has one place for each field that is no oneof
member and for each member of a oneof that the message declares.  A field whose oneof is none
of those has no place.

* `MessageDescriptor.hasPlace`: the fields that places are made for.
* `FieldPlace.Holds`: a place holds the value of a field.
* `MessageModel.Keeps`: a message has exactly one place for each of some fields.
* `MessageContext.messageModel_keeps`: a message has one for each field that has a place.
* `MessageModel.Keeps.all_iff`: when these are all fields, under numbers that fields may have.
-/

namespace Protobuf

/-- Whether a field is no oneof member or one of a oneof that the message declares. -/
def MessageDescriptor.hasPlace (m : MessageDescriptor) (f : FieldDescriptor) : Bool :=
  !f.isOneofMember || (List.range m.oneofs.length).any fun i => f.oneofIndex = some (Int32.ofNat i)

def FieldDescriptor.IsNumbered (f : FieldDescriptor) : Prop :=
  ∃ n, f.number = some n ∧ (minFieldNumber : Int) ≤ n.toInt ∧ n.toInt ≤ maxFieldNumber

/-- A model of a field of a message, whatever its comments and the module it is seen from. -/
def FieldModel.Describes (t : NameTable) (typeName : String) (f : FieldDescriptor)
    (model : FieldModel) : Prop :=
  ∃ source ident plain, FieldModel.ofDescriptor t typeName source f ident f.isOneofMember =
    .ok plain ∧ model = { plain with doc := model.doc }

/-- A place of the model of a message holds the value of a field: one of its own, or one in
    the oneof that the field is a member of. -/
inductive FieldPlace.Holds (t : NameTable) (typeName : String) (m : MessageDescriptor) :
    FieldDescriptor → FieldPlace → Prop
  | field {f model} (hf : f.isOneofMember = false) (hmodel : model.Describes t typeName f) :
      Holds t typeName m f (.field model)
  | member {f g o v} (hg : g ∈ m.oneofGroups) (hf : f ∈ g.members)
      (hname : g.oneof.name = some o.name) (hmodel : v.field.Describes t typeName f) :
      Holds t typeName m f (.member o v)

/-- The model of a message has a place for each of some fields, for no other and for none
    twice, and no two places have one number. -/
structure MessageModel.Keeps (t : NameTable) (model : MessageModel) (m : MessageDescriptor)
    (fields : List FieldDescriptor) : Prop where
  places : ∃ order : List FieldDescriptor, order.Perm fields ∧
    List.Forall₂ (FieldPlace.Holds t model.typeName m) order model.places
  numbers : (model.places.map (·.number)).Nodup

/-- What the model of a field has of its descriptor. -/
theorem FieldModel.Describes.names {t : NameTable} {typeName : String} {f : FieldDescriptor}
    {model : FieldModel} (h : model.Describes t typeName f) :
    ∃ name n, f.nameAndNumber = .ok (name, n) ∧ model.number = n.toUInt32 ∧ model.name = name ∧
      model.jsonName = f.jsonName.getD (lowerCamelCase name) := by
  obtain ⟨source, ident, plain, hplain, hmodel⟩ := h
  obtain ⟨⟨name, n⟩, hname, hplain⟩ := bind_eq_ok.1 hplain
  obtain ⟨⟨key, value⟩, -, hplain⟩ := bind_eq_ok.1 hplain
  obtain ⟨checked, -, hplain⟩ := bind_eq_ok.1 hplain
  cases hplain
  rw [hmodel]
  exact ⟨name, n, hname, rfl, rfl, rfl⟩

theorem FieldModel.Describes.number {t : NameTable} {typeName : String} {f : FieldDescriptor}
    {model : FieldModel} (h : model.Describes t typeName f) :
    ∃ n, f.number = some n ∧ model.number = n.toUInt32 := by
  obtain ⟨name, n, hname, hnumber, -, -⟩ := h.names
  exact ⟨n, FieldDescriptor.number_eq hname, hnumber⟩

section

variable {m : MessageDescriptor} {g : OneofGroup} {f : FieldDescriptor}

theorem hasPlace_of_mem_members (hg : g ∈ m.oneofGroups) (hf : f ∈ g.members) : m.hasPlace f := by
  simp only [MessageDescriptor.hasPlace, Bool.or_eq_true, List.any_eq_true, List.mem_range,
    decide_eq_true_eq]
  exact .inr ⟨_, (mem_oneofGroups hg).1, ((mem_members_iff hg).1 hf).2.2⟩

/-- A oneof member that has a place is a member of a group. -/
theorem exists_oneofGroup (hf : f ∈ m.fields) (hmember : f.isOneofMember) (hplace : m.hasPlace f) :
    ∃ g ∈ m.oneofGroups, f ∈ g.members := by
  simp only [MessageDescriptor.hasPlace, hmember, Bool.not_true, Bool.false_or, List.any_eq_true,
    List.mem_range, decide_eq_true_eq] at hplace
  obtain ⟨i, hi, hindex⟩ := hplace
  have hmem : (m.oneofs[i], i) ∈ m.oneofs.zipIdx := List.mk_mem_zipIdx_iff_getElem?.2 (by simp [hi])
  have hf' : f ∈ m.fields.filter fun f => f.isOneofMember && f.oneofIndex = some (Int32.ofNat i) :=
    List.mem_filter.2 ⟨hf, by simp [hmember, hindex]⟩
  refine ⟨_, List.mem_filter.2 ⟨List.mem_map_of_mem hmem, ?_⟩, hf'⟩
  simpa using ⟨f, hf, by simp [hmember], hindex⟩

end

namespace FieldPlace

variable {t : NameTable} {typeName : String} {m : MessageDescriptor} {f : FieldDescriptor}
  {p : FieldPlace}

theorem Holds.number (h : p.Holds t typeName m f) :
    ∃ n, f.number = some n ∧ p.number = n.toUInt32 := by
  cases h with
  | field _ hmodel => exact hmodel.number
  | member _ _ _ hmodel => exact hmodel.number

theorem Holds.hasPlace (h : p.Holds t typeName m f) : m.hasPlace f := by
  cases h with
  | field hf => simp [MessageDescriptor.hasPlace, hf]
  | member hg hf => exact hasPlace_of_mem_members hg hf

/-- A place has a number that fields may have just if its field was declared with one. -/
theorem Holds.isFieldNumber_iff (h : p.Holds t typeName m f) :
    IsFieldNumber p.number.toNat ↔ f.IsNumbered := by
  obtain ⟨n, hn, hp⟩ := h.number
  -- A negative number is a large one without its sign.
  have hnat : p.number.toNat = n.toBitVec.toNat := by rw [hp]; rfl
  have hint : n.toInt = n.toBitVec.toInt := rfl
  have hlt := n.toBitVec.isLt
  rw [BitVec.toInt_eq_toNat_cond] at hint
  simp only [FieldDescriptor.IsNumbered, hn, Option.some.injEq, exists_eq_left', IsFieldNumber, hnat,
    minFieldNumber, maxFieldNumber]
  split at hint <;> omega

/-- Places of fields with distinct numbers have distinct numbers. -/
theorem nodup_numbers {fields : List FieldDescriptor} {places : List FieldPlace}
    (h : List.Forall₂ (Holds t typeName m) fields places)
    (nodup : (fields.map (·.number)).Nodup) : (places.map (·.number)).Nodup := by
  have hnumbers : (places.map (·.number)).map (some ·.toInt32) = fields.map (·.number) := by
    clear nodup
    induction h with
    | nil => rfl
    | cons hfp _ ih =>
      obtain ⟨n, hn, hp⟩ := hfp.number
      rw [List.map_cons, List.map_cons, ih, List.map_cons, hn, hp]
      rfl
  exact List.Nodup.of_map _ (hnumbers ▸ nodup)

end FieldPlace

/-! ## Numbers -/

/-- A field that was named has a number, and its name stands under it. -/
theorem exists_number {named : List (Int32 × Ident)} {fields : List FieldDescriptor}
    (h : named.map (fun e => some e.1) = fields.map (·.number)) {f : FieldDescriptor}
    (hf : f ∈ fields) : ∃ n ∈ named.map (·.1), f.number = some n := by
  have hmem : f.number ∈ named.map fun e => some e.1 := h ▸ List.mem_map_of_mem hf
  obtain ⟨e, he, hnumber⟩ := List.mem_map.1 hmem
  exact ⟨e.1, List.mem_map_of_mem he, hnumber.symm⟩

theorem nodup_index_oneofGroups (m : MessageDescriptor) :
    (m.oneofGroups.map (·.index)).Nodup := by
  refine List.Nodup.sublist (List.Sublist.map _ List.filter_sublist) ?_
  rw [List.map_map]
  exact (List.zipIdx_map_snd 0 m.oneofs).symm ▸ List.nodup_range'

/-- The numbers of the variants of oneofs are those of their members. -/
theorem map_some_variants {groups : List OneofGroup} {oneofs : List (Nat × OneofNames)}
    (h : List.Forall₂ (fun g o => OneofNames.Distinct o g) groups oneofs) :
    (oneofs.flatMap (·.2.variants.map (·.1))).map some =
      (groups.flatMap (·.members)).map (·.number) := by
  rw [List.map_flatMap, List.map_flatMap]
  induction h with
  | nil => rfl
  | cons hd _ ih =>
    rw [List.flatMap_cons, List.flatMap_cons, ih, ← hd.members, List.map_map]
    rfl

namespace MessageNames

variable {names : MessageNames} {m : MessageDescriptor}

/-- The names of a oneof are found under its position. -/
theorem Distinct.oneof (h : names.Distinct m) {g : OneofGroup} (hg : g ∈ m.oneofGroups) :
    ∃ oneofNames, entryOf? g.index names.oneofs = some oneofNames ∧
      oneofNames.variants.map (fun e => some e.1) = g.members.map (·.number) := by
  obtain ⟨⟨index, oneofNames⟩, hmem, hdistinct⟩ := exists_mem_of_forall₂ h.oneofs hg
  obtain rfl : index = g.index := hdistinct.index
  have hkeys : names.oneofs.map (·.1) = m.oneofGroups.map (·.index) :=
    (List.forall₂_eq_eq_eq ▸ List.rel_map (fun _ _ hd => hd.index.symm) h.oneofs :
      m.oneofGroups.map (·.index) = names.oneofs.map (·.1)).symm
  exact ⟨oneofNames, entryOf?_of_mem (hkeys ▸ nodup_index_oneofGroups m) hmem, hdistinct.members⟩

/-- The numbers that a message has names for are those of its fields, oneof by oneof. -/
theorem Distinct.numbers_eq (h : names.Distinct m) :
    names.numbers.map some =
      (m.fields.filter (!·.isOneofMember) ++ m.oneofGroups.flatMap (·.members)).map (·.number) := by
  rw [MessageNames.numbers, List.map_append, List.map_append, map_some_variants h.oneofs, ← h.numbers,
    List.map_map]
  rfl

end MessageNames

theorem count_filter_of_mem {α : Type} [DecidableEq α] {keep : α → Bool} {as : List α} {a : α}
    (h : a ∈ as.filter keep) : (as.filter keep).count a = as.count a :=
  List.count_filter (List.mem_filter.1 h).2

/-- If no two members of a message's oneofs are alike, the fields that places are made for are
    those outside its oneofs and the members of these. -/
theorem MessageDescriptor.perm_filter_hasPlace {m : MessageDescriptor}
    (h : (m.oneofGroups.flatMap (·.members)).Nodup) :
    (m.fields.filter (!·.isOneofMember) ++ m.oneofGroups.flatMap (·.members)).Perm
      (m.fields.filter m.hasPlace) := by
  -- Members in a oneof that is declared are members of its group, and the other way round.
  have hmem : ∀ f, f ∈ m.oneofGroups.flatMap (·.members) ↔
      f ∈ m.fields.filter fun f => f.isOneofMember && m.hasPlace f := by
    intro f
    rw [List.mem_flatMap, List.mem_filter, Bool.and_eq_true]
    constructor
    · rintro ⟨g, hg, hf⟩
      obtain ⟨hfield, hmember, -⟩ := (mem_members_iff hg).1 hf
      exact ⟨hfield, hmember, hasPlace_of_mem_members hg hf⟩
    · rintro ⟨hf, hmember, hplace⟩
      exact exists_oneofGroup hf hmember hplace
  -- A member that was declared twice would be in its group twice.
  have hnodup : (m.fields.filter fun f => f.isOneofMember && m.hasPlace f).Nodup := by
    refine List.nodup_iff_count_le_one.2 fun f => ?_
    by_cases hf : f ∈ m.oneofGroups.flatMap (·.members)
    · obtain ⟨g, hg, hfg⟩ := List.mem_flatMap.1 hf
      have hcount := List.nodup_iff_count_le_one.1 ((List.nodup_flatMap.1 h).1 g hg) f
      rw [(mem_oneofGroups hg).2] at hfg hcount
      rw [count_filter_of_mem hfg] at hcount
      rwa [count_filter_of_mem ((hmem f).1 hf)]
    · rw [hmem] at hf
      simp [List.count_eq_zero.2 hf]
  have hrest : (m.fields.filter (!·.isOneofMember)) =
      (m.fields.filter m.hasPlace).filter (!·.isOneofMember) := by
    rw [List.filter_filter]
    refine List.filter_congr fun f _ => ?_
    cases hmember : f.isOneofMember <;> simp [MessageDescriptor.hasPlace, hmember]
  have hmembers : (m.oneofGroups.flatMap (·.members)).Perm
      ((m.fields.filter m.hasPlace).filter (·.isOneofMember)) := by
    rw [List.filter_filter]
    exact (List.perm_ext_iff_of_nodup h hnodup).2 hmem
  rw [hrest]
  exact (List.perm_append_comm.trans (hmembers.append_right _)).trans
    (List.filter_append_perm FieldDescriptor.isOneofMember _)

/-! ## A model for each place -/

namespace MessageContext

variable {ctx : MessageContext} {names : MessageNames} {m : MessageDescriptor}

/-- Each field that is no oneof member is given a model. -/
theorem fieldModels_ok {fields : List FieldDescriptor} {models : List FieldModel}
    (hnumbers : ∀ f ∈ fields.filter (!·.isOneofMember),
      ∃ n ∈ names.fields.map (·.1), f.number = some n)
    (h : ctx.fieldModels names fields = .ok models) :
    List.Forall₂ (fun f model => f.isOneofMember = false ∧
      model.Describes ctx.table ctx.typeName f) (fields.filter (!·.isOneofMember)) models := by
  have hall := forall₂_of_foldlM (R := fun a model => a.1.isOneofMember = false ∧
    FieldModel.Describes ctx.table ctx.typeName a.1 model) (!·.1.isOneofMember) h ?_
  · rw [← List.zipIdx_map_fst 0 fields, List.filter_map, List.forall₂_map_left_iff]
    exact hall
  rintro ⟨f, index⟩ hmem models models' hstep
  cases hmember : f.isOneofMember with
  | true =>
    simp only [hmember, if_true] at hstep
    cases hstep
    simp
  | false =>
    obtain ⟨n, hn, hnumber⟩ := hnumbers f
      (List.mem_filter.2 ⟨List.fst_mem_of_mem_zipIdx hmem, by simp [hmember]⟩)
    obtain ⟨ident, hident⟩ := Option.isSome_iff_exists.1 (isSome_entryOf?_iff.2 hn)
    simp only [hmember, hnumber, Option.bind_some, hident] at hstep
    obtain ⟨model, hmodel, hstep⟩ := bind_eq_ok.1 hstep
    cases hstep
    simp only [Bool.not_false, if_true]
    exact ⟨_, ⟨trivial, ctx.module, ident, model, hmember ▸ hmodel, rfl⟩, rfl⟩

/-- Each member of a oneof is given a variant. -/
theorem oneofModel_ok {module : Ident} {g : OneofGroup} {oneofNames : OneofNames}
    {o : OneofModel} (hmember : ∀ f ∈ g.members, f.isOneofMember)
    (hnumbers : ∀ f ∈ g.members, ∃ n ∈ oneofNames.variants.map (·.1), f.number = some n)
    (h : ctx.oneofModel module m.fields g oneofNames = .ok o) :
    g.oneof.name = some o.name ∧
      List.Forall₂ (fun f v => v.field.Describes ctx.table ctx.typeName f) g.members o.variants := by
  obtain ⟨name, hname, h⟩ := bind_eq_ok.1 h
  obtain ⟨checkedModule, -, h⟩ := bind_eq_ok.1 h
  obtain ⟨ident, -, h⟩ := bind_eq_ok.1 h
  obtain ⟨variants, hvariants, h⟩ := bind_eq_ok.1 h
  obtain ⟨field, -, h⟩ := bind_eq_ok.1 h
  cases h
  refine ⟨NameTable.required_eq_ok hname, ?_⟩
  have hall := forall₂_of_foldlM (R := fun f (v : VariantModel) =>
    v.field.Describes ctx.table ctx.typeName f) (fun _ => true) hvariants ?_
  · rwa [List.filter_true] at hall
  intro f hf variants variants' hstep
  obtain ⟨n, hn, hnumber⟩ := hnumbers f hf
  obtain ⟨variant, hvariant⟩ := Option.isSome_iff_exists.1 (isSome_entryOf?_iff.2 hn)
  simp only [hnumber, Option.getD_some, hvariant] at hstep
  obtain ⟨fieldName, -, hstep⟩ := bind_eq_ok.1 hstep
  obtain ⟨model, hmodel, hstep⟩ := bind_eq_ok.1 hstep
  obtain ⟨inner, -, hstep⟩ := bind_eq_ok.1 hstep
  obtain ⟨checkedVariant, -, hstep⟩ := bind_eq_ok.1 hstep
  cases hstep
  simp only [if_true]
  exact ⟨_, ⟨ctx.module, _, model, (hmember f hf).symm ▸ hmodel, rfl⟩, rfl⟩

theorem messageModel_typeName {model : MessageModel} (h : ctx.messageModel m = .ok model) :
    model.typeName = ctx.typeName := by
  unfold messageModel at h
  split at h
  · cases h
  · obtain ⟨fields, -, h⟩ := bind_eq_ok.1 h
    obtain ⟨oneofs, -, h⟩ := bind_eq_ok.1 h
    obtain ⟨ident, -, h⟩ := bind_eq_ok.1 h
    obtain ⟨partialIdent, -, h⟩ := bind_eq_ok.1 h
    cases h
    rfl

/-- The model of a message has its fields and its oneofs, one after another. -/
theorem messageModel_ok {model : MessageModel}
    (hnames : entryOf? ctx.typeName ctx.table.messages = some names) (hdistinct : names.Distinct m)
    (h : ctx.messageModel m = .ok model) :
    List.Forall₂ (FieldPlace.Holds ctx.table ctx.typeName m)
      (m.fields.filter (!·.isOneofMember) ++ m.oneofGroups.flatMap (·.members))
      (model.fields.map .field ++ model.oneofs.flatMap fun o => o.variants.map (.member o)) := by
  simp only [messageModel, hnames] at h
  obtain ⟨fields, hfields, h⟩ := bind_eq_ok.1 h
  obtain ⟨oneofs, honeofs, h⟩ := bind_eq_ok.1 h
  obtain ⟨ident, -, h⟩ := bind_eq_ok.1 h
  obtain ⟨partialIdent, -, h⟩ := bind_eq_ok.1 h
  cases h
  refine List.rel_append ?_ ?_
  · rw [List.forall₂_map_right_iff]
    exact (fieldModels_ok (fun f hf => exists_number hdistinct.numbers hf) hfields).imp
      fun f model hmodel => .field hmodel.1 hmodel.2
  have hall := forall₂_of_foldlM (R := fun g (o : OneofModel) => g ∈ m.oneofGroups ∧
    g.oneof.name = some o.name ∧
      List.Forall₂ (fun f v => v.field.Describes ctx.table ctx.typeName f) g.members o.variants)
    (fun _ => true) honeofs ?_
  · rw [List.filter_true] at hall
    refine List.rel_flatMap hall ?_
    rintro g o ⟨hg, hname, hvariants⟩
    rw [List.forall₂_map_right_iff]
    have hmembers : List.Forall₂ (fun f (v : VariantModel) => f ∈ g.members ∧
        v.field.Describes ctx.table ctx.typeName f) g.members o.variants :=
      (List.forall₂_and_left _ _).2 ⟨fun f hf => hf, hvariants⟩
    exact hmembers.imp fun f v hmember => .member hg hmember.1 hname hmember.2
  intro g hg oneofs oneofs' hstep
  obtain ⟨oneofNames, hentry, hmembers⟩ := hdistinct.oneof hg
  simp only [hentry] at hstep
  obtain ⟨o, ho, hstep⟩ := bind_eq_ok.1 hstep
  cases hstep
  simp only [if_true]
  exact ⟨o, ⟨hg, oneofModel_ok (fun f hf => ((mem_members_iff hg).1 hf).2.1)
    (fun f hf => exists_number hmembers hf) ho⟩, rfl⟩

/-- The model of a message under its own names has exactly one place for each field that is no
    oneof member and for each member of a oneof that the message declares. -/
theorem messageModel_keeps {model : MessageModel} {idents : MessageIdents} {module : Scope}
    (hnames : entryOf? ctx.typeName ctx.table.messages = some names)
    (hown : messageNames m idents module = .ok names) (h : ctx.messageModel m = .ok model) :
    model.Keeps ctx.table m (m.fields.filter m.hasPlace) := by
  obtain ⟨-, hdistinct, -⟩ := messageNames_ok hown
  have hplaces := messageModel_ok hnames hdistinct h
  have hnumbers : ((m.fields.filter (!·.isOneofMember) ++
      m.oneofGroups.flatMap (·.members)).map (·.number)).Nodup :=
    hdistinct.numbers_eq ▸ (messageNames_numbers hown).map (Option.some_injective _)
  have hperm := MessageDescriptor.perm_filter_hasPlace
    (List.nodup_append'.1 hnumbers.of_map).2.1
  obtain ⟨order, horder, hholds⟩ : ∃ order : List FieldDescriptor,
      (m.fields.filter (!·.isOneofMember) ++ m.oneofGroups.flatMap (·.members)).Perm order ∧
        List.Forall₂ (FieldPlace.Holds ctx.table ctx.typeName m) order model.places := by
    have hsorted := List.mergeSort_perm (model.fields.map FieldPlace.field ++
      model.oneofs.flatMap fun o => o.variants.map (.member o)) fun a b => a.number ≤ b.number
    have hcomp : Relation.Comp (List.Forall₂ (FieldPlace.Holds ctx.table ctx.typeName m)) List.Perm
        _ model.places := ⟨_, hplaces, hsorted.symm⟩
    rwa [List.forall₂_comp_perm_eq_perm_comp_forall₂] at hcomp
  refine ⟨⟨order, horder.symm.trans hperm, (messageModel_typeName h).symm ▸ hholds⟩, ?_⟩
  exact FieldPlace.nodup_numbers hholds ((horder.map _).nodup_iff.1 hnumbers)

end MessageContext

namespace MessageModel

variable {t : NameTable} {model : MessageModel} {m : MessageDescriptor} {fields : List FieldDescriptor}

/-- Each field that is kept is held at one place and no other. -/
theorem Keeps.existsUnique (h : model.Keeps t m fields) {f : FieldDescriptor} (hf : f ∈ fields) :
    ∃! p, p ∈ model.places ∧ p.Holds t model.typeName m f := by
  obtain ⟨order, horder, hholds⟩ := h.places
  obtain ⟨p, hp, hfp⟩ := exists_mem_of_forall₂ hholds (horder.mem_iff.2 hf)
  refine ⟨p, ⟨hp, hfp⟩, ?_⟩
  rintro q ⟨hq, hfq⟩
  obtain ⟨n, hn, hpn⟩ := hfp.number
  obtain ⟨k, hk, hqk⟩ := hfq.number
  obtain rfl : n = k := Option.some.inj (hn.symm.trans hk)
  exact List.inj_on_of_nodup_map h.numbers hq hp (hqk.trans hpn.symm)

/-- A message whose fields with a place are kept keeps all its fields, under numbers that
    fields may have, just if each field has a place and was declared with such a number. -/
theorem Keeps.all_iff (h : model.Keeps t m (m.fields.filter m.hasPlace)) :
    (model.Keeps t m m.fields ∧ ∀ p ∈ model.places, IsFieldNumber p.number.toNat) ↔
      ∀ f ∈ m.fields, m.hasPlace f ∧ f.IsNumbered := by
  constructor
  · rintro ⟨hall, hvalid⟩ f hf
    obtain ⟨p, ⟨hp, hfp⟩, -⟩ := hall.existsUnique hf
    exact ⟨hfp.hasPlace, hfp.isFieldNumber_iff.1 (hvalid p hp)⟩
  · intro hall
    rw [List.filter_eq_self.2 fun f hf => (hall f hf).1] at h
    refine ⟨h, fun p hp => ?_⟩
    obtain ⟨order, horder, hholds⟩ := h.places
    obtain ⟨f, hf, hfp⟩ := exists_mem_of_forall₂ hholds.flip hp
    exact hfp.isFieldNumber_iff.2 (hall f (horder.mem_iff.1 hf)).2

end MessageModel

end Protobuf
