import Mathlib.Data.String.Basic
import Protobuf.Generate.Files
import Protobuf.Proofs.Generate.Places
import Protobuf.Proofs.Names.Entries

/-! # Messages of generated modules

Each message that a file declares and whose type is generated has one model among the items
of the modules, wherever it is declared and whichever files share a module.

* `Item.models`, `itemsModels`: the models of messages among items.
* `NameTable.Emits`: models were made of messages, in order.
* `generatedModules_items`: the items of the modules are those of the files.
* `FileItems.items_emits`, `generatedModules_emits`: what models a file and a schema have.
* `generatedModules_keeps`: the one model of a message, and the fields that it has places for.
-/

namespace Protobuf

mutual

def Item.models : Item → List MessageModel
  | .message m => [m]
  | .oneof _ => []
  | .enumeration _ => []
  | .module _ items => itemsModels items

def itemsModels : List Item → List MessageModel
  | [] => []
  | i :: rest => i.models ++ itemsModels rest

end

theorem itemsModels_eq_flatMap (items : List Item) : itemsModels items = items.flatMap (·.models) := by
  induction items with
  | nil => rw [itemsModels, List.flatMap_nil]
  | cons i rest ih => rw [itemsModels, List.flatMap_cons, ih]

@[simp] theorem itemsModels_append (items items' : List Item) :
    itemsModels (items ++ items') = itemsModels items ++ itemsModels items' := by
  simp only [itemsModels_eq_flatMap, List.flatMap_append]

theorem itemsModels_messages (models : List MessageModel) :
    itemsModels (models.map .message) = models := by
  simp [itemsModels_eq_flatMap, List.flatMap_map, Item.models]

theorem itemsModels_oneofs (oneofs : List OneofModel) : itemsModels (oneofs.map .oneof) = [] := by
  simp [itemsModels_eq_flatMap, List.flatMap_map, Item.models]

namespace NameTable

/-- The model of a message, of which file and in which module ever. -/
def Makes (t : NameTable) (e : String × MessageDescriptor) (model : MessageModel) : Prop :=
  ∃ file module path, MessageContext.messageModel ⟨t, file, e.1, module, path⟩ e.2 = .ok model

/-- Models were made, one each, of messages among `listed` whose types are generated.  If the
    table has names for all of `sure`, none of these was left out. -/
def Emits (t : NameTable) (sure listed : List (String × MessageDescriptor))
    (models : List MessageModel) : Prop :=
  ∃ es, List.Forall₂ t.Makes es models ∧ es.Sublist (listed.filter (t.isGenerated ·.1)) ∧
    ((∀ e ∈ sure, e.1 ∈ t.messages.map (·.1)) →
      (sure.filter (t.isGenerated ·.1)).Sublist es)

variable {t : NameTable} {sure sure' listed listed' : List (String × MessageDescriptor)}
  {models models' : List MessageModel}

theorem Emits.nil : t.Emits [] [] [] := ⟨[], .nil, .slnil, fun _ => .slnil⟩

theorem Emits.append (h : t.Emits sure listed models) (h' : t.Emits sure' listed' models') :
    t.Emits (sure ++ sure') (listed ++ listed') (models ++ models') := by
  obtain ⟨es, hmakes, hlisted, hsure⟩ := h
  obtain ⟨es', hmakes', hlisted', hsure'⟩ := h'
  refine ⟨es ++ es', List.rel_append hmakes hmakes', ?_, fun hnames => ?_⟩
  · rw [List.filter_append]
    exact hlisted.append hlisted'
  · rw [List.forall_mem_append] at hnames
    rw [List.filter_append]
    exact (hsure hnames.1).append (hsure' hnames.2)

/-- A message without names has no model, and neither has what is declared inside it. -/
theorem Emits.of_not_mem {e : String × MessageDescriptor} (he : e ∈ sure)
    (h : e.1 ∉ t.messages.map (·.1)) : t.Emits sure listed [] :=
  ⟨[], .nil, List.nil_sublist _, fun hnames => absurd (hnames e he) h⟩

theorem Emits.weaken (h : t.Emits sure listed models) : t.Emits [] listed models := by
  obtain ⟨es, hmakes, hlisted, -⟩ := h
  exact ⟨es, hmakes, hlisted, fun _ => List.nil_sublist _⟩

end NameTable

/-! ## The items of a file -/

namespace FileItems

variable {fi : FileItems} {scope : String} {items : List Item}

theorem enums_models {path : Nat → ElementPath} {es : List EnumDescriptor}
    (h : fi.enums scope path es = .ok items) : itemsModels items = [] := by
  refine foldlM_ok (P := fun _ items => itemsModels items = []) h (by rw [itemsModels]) ?_
  rintro _ ⟨e, index⟩ items items' hitems hstep
  obtain ⟨name, -, hstep⟩ := bind_eq_ok.1 hstep
  simp only at hstep
  split at hstep
  · split at hstep
    · obtain ⟨model, -, hstep⟩ := bind_eq_ok.1 hstep
      cases hstep
      rw [itemsModels_append, hitems, itemsModels_eq_flatMap]
      simp [Item.models]
    · cases hstep
      exact hitems
  · cases hstep
    exact hitems

theorem model?_emits {typeName : String} {module : List Ident} {path : ElementPath}
    {m : MessageDescriptor} {model : Option MessageModel}
    (h : fi.model? typeName module path m = .ok model) :
    fi.table.Emits [(typeName, m)] [(typeName, m)] model.toList := by
  unfold model? at h
  split at h
  · rename_i hgenerated
    obtain ⟨model, hmodel, h⟩ := bind_eq_ok.1 h
    cases h
    have hmakes : fi.table.Makes (typeName, m) model := ⟨fi.file, module, path, hmodel⟩
    refine ⟨[(typeName, m)], .cons hmakes .nil, ?_, fun _ => ?_⟩ <;> simp [hgenerated]
  · rename_i hgenerated
    cases h
    refine ⟨[], .nil, List.nil_sublist _, fun _ => ?_⟩
    simp [hgenerated]

theorem message_eq (typeName : String) (module : List Ident) (path : ElementPath)
    (m : MessageDescriptor) :
    message fi typeName module path m =
      match entryOf? typeName fi.table.messages with
      | none => .ok []
      | some names => (do
        let model ← fi.model? typeName module path m
        let own := model.toList.map Item.message
        let oneofItems := model.toList.flatMap fun model => model.oneofs.map Item.oneof
        let enumItems ← fi.enums (typeName ++ ".") path.nestedEnum m.enumTypes
        let messageItems ←
          nested fi (typeName ++ ".") (module ++ [names.module]) path 0 m.nestedTypes
        match oneofItems ++ enumItems ++ messageItems with
        | [] => return own
        | inner => return own ++ [.module (← names.module.checked) inner]) := by
  obtain ⟨_, _, _, _, _, _⟩ := m
  exact message.eq_def ..

theorem nested_nil (scope : String) (module : List Ident) (path : ElementPath) (index : Nat) :
    nested fi scope module path index [] = .ok [] := by
  exact nested.eq_def ..

theorem nested_cons (scope : String) (module : List Ident) (path : ElementPath) (index : Nat)
    (m : MessageDescriptor) (rest : List MessageDescriptor) :
    nested fi scope module path index (m :: rest) =
      if m.isMapEntry then nested fi scope module path (index + 1) rest
      else do
        let typeName := scope ++ (← required m.name)
        let items ← message fi typeName module (path.nestedMessage index) m
        return items ++ (← nested fi scope module path (index + 1) rest) := by
  exact nested.eq_def ..

/-- The items of a message that others follow go before theirs. -/
theorem nested_cons_ok {module : List Ident} {path : ElementPath} {index : Nat} {m : MessageDescriptor}
    {rest : List MessageDescriptor} (hentry : ¬m.isMapEntry)
    (h : nested fi scope module path index (m :: rest) = .ok items) :
    ∃ name own others, m.name = some name ∧
      message fi (scope ++ name) module (path.nestedMessage index) m = .ok own ∧
      nested fi scope module path (index + 1) rest = .ok others ∧ items = own ++ others := by
  rw [nested_cons, if_neg hentry] at h
  obtain ⟨name, hname, h⟩ := bind_eq_ok.1 h
  obtain ⟨own, hown, h⟩ := bind_eq_ok.1 h
  obtain ⟨others, hothers, h⟩ := bind_eq_ok.1 h
  cases h
  exact ⟨name, own, others, NameTable.required_eq_ok hname, hown, hothers, rfl⟩

theorem ownOneofs_models (model : Option MessageModel) :
    itemsModels (model.toList.flatMap fun model => model.oneofs.map Item.oneof) = [] := by
  cases model with
  | none => rw [Option.toList_none, List.flatMap_nil, itemsModels]
  | some model => rw [Option.toList_some, List.flatMap_singleton, itemsModels_oneofs]

/-- Items are put into the module of a message if there are any. -/
theorem inner_models {own inner items : List Item} {names : MessageNames}
    (h : (match inner with
      | [] => return own
      | inner => return own ++ [.module (← names.module.checked) inner] :
        Except GenerateError (List Item)) = .ok items) :
    itemsModels items = itemsModels own ++ itemsModels inner := by
  cases inner with
  | nil =>
    cases h
    rw [itemsModels, List.append_nil]
  | cons i inner =>
    obtain ⟨ident, -, h⟩ := bind_eq_ok.1 h
    cases h
    rw [itemsModels_append, itemsModels, Item.models, itemsModels, List.append_nil]

mutual

/-- A message and what is declared inside it. -/
theorem message_emits {scope name : String} {module : List Ident} {path : ElementPath} :
    {m : MessageDescriptor} → {items : List Item} → m.name = some name →
      message fi (scope ++ name) module path m = .ok items →
      fi.table.Emits (m.messages scope) (m.messages scope) (itemsModels items)
  | ⟨_, fields, nestedTypes, enumTypes, options, oneofs⟩, items, hname, h => by
    rw [message_eq] at h
    rw [MessageDescriptor.messages_eq hname]
    split at h
    · rename_i hnone
      cases h
      exact .of_not_mem List.mem_cons_self (entryOf?_eq_none_iff.1 hnone)
    · rename_i names hnames
      obtain ⟨model, hmodel, h⟩ := bind_eq_ok.1 h
      obtain ⟨enumItems, henums, h⟩ := bind_eq_ok.1 h
      obtain ⟨messageItems, hmessages, h⟩ := bind_eq_ok.1 h
      -- Only what is declared inside adds models to the module of the message.
      have hinner := inner_models h
      rw [itemsModels_messages, itemsModels_append, itemsModels_append, enums_models henums,
        ownOneofs_models, List.nil_append, List.nil_append] at hinner
      rw [hinner]
      exact (model?_emits hmodel).append (nested_emits hmessages)

/-- The messages that are declared inside one. -/
theorem nested_emits {scope : String} {module : List Ident} {path : ElementPath} :
    {index : Nat} → {ms : List MessageDescriptor} → {items : List Item} →
      nested fi scope module path index ms = .ok items →
      fi.table.Emits (nestedMessages scope ms) (nestedMessages scope ms) (itemsModels items)
  | _, [], _, h => by
    rw [nested_nil] at h
    cases h
    rw [nestedMessages, itemsModels]
    exact .nil
  | _, m :: rest, items, h => by
    rw [nestedMessages]
    by_cases hentry : m.isMapEntry
    · rw [nested_cons, if_pos hentry] at h
      rw [if_pos hentry]
      exact nested_emits h
    · obtain ⟨name, own, others, hname, hown, hothers, rfl⟩ := nested_cons_ok hentry h
      rw [if_neg hentry, itemsModels_append]
      exact (message_emits hname hown).append (nested_emits hothers)

end

end FileItems

/-- The messages that items of a file are looked for: those at its top, map entries included,
    and those inside them, map entries apart. -/
def FileDescriptor.listedMessages (f : FileDescriptor) : List (String × MessageDescriptor) :=
  f.messageTypes.flatMap (·.messages f.scope)

theorem FileItems.items_emits {fi : FileItems} {items : List Item} (h : fi.items = .ok items) :
    fi.table.Emits fi.file.declaredMessages fi.file.listedMessages (itemsModels items) := by
  obtain ⟨enumItems, henums, h⟩ := bind_eq_ok.1 h
  obtain ⟨messageItems, hmessages, h⟩ := bind_eq_ok.1 h
  cases h
  rw [itemsModels_append, FileItems.enums_models henums, List.nil_append,
    FileDescriptor.declaredMessages, nestedMessages_eq, FileDescriptor.listedMessages]
  have hall := foldlM_ok (P := fun (done : List (MessageDescriptor × Nat)) items =>
    fi.table.Emits (((done.map (·.1)).filter (!·.isMapEntry)).flatMap (·.messages fi.file.scope))
      ((done.map (·.1)).flatMap (·.messages fi.file.scope)) (itemsModels items)) hmessages ?_ ?_
  · rwa [List.zipIdx_map_fst] at hall
  · rw [itemsModels]
    exact .nil
  rintro done ⟨m, index⟩ items items' hdone hstep
  obtain ⟨name, hname, hstep⟩ := bind_eq_ok.1 hstep
  obtain ⟨own, hown, hstep⟩ := bind_eq_ok.1 hstep
  cases hstep
  have hm := FileItems.message_emits (NameTable.required_eq_ok hname) hown
  rw [itemsModels_append, List.map_append, List.map_singleton, List.filter_append,
    List.flatMap_append, List.flatMap_append, List.flatMap_singleton]
  refine hdone.append ?_
  cases hentry : m.isMapEntry with
  | true => simpa [hentry] using hm.weaken
  | false => simpa [hentry] using hm

/-! ## The items of modules -/

section

variable {α : Type} {key : String} {entries : List (String × α)}

def Ascending (entries : List (String × α)) : Prop := entries.Pairwise (·.1 < ·.1)

theorem mem_insertByKey_imp {value : α} {e : String × α} (h : e ∈ insertByKey key value entries) :
    e = (key, value) ∨ e ∈ entries := by
  induction entries with
  | nil => simpa [insertByKey] using h
  | cons entry rest ih =>
    unfold insertByKey at h
    split at h
    · rcases List.mem_cons.1 h with rfl | h
      · exact .inr List.mem_cons_self
      · exact (ih h).imp_right (List.mem_cons_of_mem _)
    · split at h
      · exact (List.mem_cons.1 h).imp_right (List.mem_cons_of_mem _)
      · exact List.mem_cons.1 h

theorem Ascending.insertByKey (h : Ascending entries) (value : α) :
    Ascending (insertByKey key value entries) := by
  induction entries with
  | nil => exact List.pairwise_singleton _ _
  | cons entry rest ih =>
    obtain ⟨hall, hrest⟩ := List.pairwise_cons.1 h
    unfold Protobuf.insertByKey
    split
    · rename_i hlt
      refine List.pairwise_cons.2 ⟨fun e he => ?_, ih hrest⟩
      rcases mem_insertByKey_imp he with rfl | he
      · exact hlt
      · exact hall e he
    · rename_i hlt
      split
      · rename_i heq
        exact List.pairwise_cons.2 ⟨heq ▸ hall, hrest⟩
      · rename_i hne
        have hkey : key < entry.1 := lt_of_le_of_ne (not_lt.1 hlt) (Ne.symm hne)
        refine List.pairwise_cons.2 ⟨fun e he => ?_, h⟩
        rcases List.mem_cons.1 he with rfl | he
        · exact hkey
        · exact hkey.trans (hall e he)

theorem Ascending.nodup (h : Ascending entries) : (entries.map (·.1)).Nodup :=
  (List.pairwise_map.2 h).imp ne_of_lt

theorem mem_insertByKey_of_ne {value : α} {e : String × α} (he : e ∈ entries) (hne : e.1 ≠ key) :
    e ∈ insertByKey key value entries := by
  induction entries with
  | nil => cases he
  | cons entry rest ih =>
    unfold insertByKey
    split
    · rcases List.mem_cons.1 he with rfl | he
      · exact List.mem_cons_self
      · exact List.mem_cons_of_mem _ (ih he)
    · split
      · rename_i heq
        rcases List.mem_cons.1 he with rfl | he
        · exact absurd heq hne
        · exact List.mem_cons_of_mem _ he
      · exact List.mem_cons_of_mem _ he

/-- An entry takes the place of the one with its key, and of no other. -/
theorem Ascending.mem_insertByKey_iff (h : Ascending entries) {value : α} {e : String × α} :
    e ∈ Protobuf.insertByKey key value entries ↔ e = (key, value) ∨ e ∈ entries ∧ e.1 ≠ key := by
  constructor
  · intro he
    by_cases hkey : e.1 = key
    · exact .inl (List.inj_on_of_nodup_map (h.insertByKey value).nodup he
        (mem_insertByKey key value entries) hkey)
    · exact (mem_insertByKey_imp he).imp_right (⟨·, hkey⟩)
  · rintro (rfl | ⟨he, hne⟩)
    · exact mem_insertByKey key value entries
    · exact mem_insertByKey_of_ne he hne

end

def placedItems (modules : List (String × List Item)) : List (String × Item) :=
  modules.flatMap fun e => e.2.map fun i => (e.1, i)

theorem map_snd_placedItems (modules : List (String × List Item)) :
    (placedItems modules).map (·.2) = modules.flatMap (·.2) := by
  simp [placedItems, List.map_flatMap, Function.comp_def]

theorem addToModule_placed {name : String} {items : List Item} {modules : List (String × List Item)}
    (h : Ascending modules) :
    (placedItems (addToModule name items modules)).Perm
      (placedItems modules ++ items.map fun i => (name, i)) := by
  unfold placedItems
  induction modules with
  | nil => simp [addToModule, insertByKey, entryOf?]
  | cons entry rest ih =>
    obtain ⟨hall, hrest⟩ := List.pairwise_cons.1 h
    unfold addToModule insertByKey
    rw [entryOf?_cons]
    split
    · rename_i hlt
      rw [if_neg hlt.ne]
      simpa [addToModule] using (ih hrest).append_left (entry.2.map fun i => (entry.1, i))
    · rename_i hlt
      split
      · -- The module is there already.
        rename_i heq
        rw [Option.getD_some, ← heq, List.flatMap_cons, List.flatMap_cons, List.map_append,
          List.append_assoc, List.append_assoc]
        exact List.perm_append_comm.append_left _
      · rename_i hne
        have hnone : entryOf? name rest = none := by
          rw [entryOf?_eq_none_iff]
          intro hmem
          obtain ⟨e, he, rfl⟩ := List.mem_map.1 hmem
          exact hlt (hall e he)
        rw [hnone]
        exact List.perm_append_comm

def DescriptorSet.generatedFiles (s : DescriptorSet) (settings : Settings)
    (targets : Option (List String)) : List FileDescriptor :=
  s.files.filter fun f => settings.generates targets (f.name.getD "") f

/-- What each file that code is generated for keeps, whether it has items or not, holds of the
    modules in the end. -/
theorem generatedModules_induct {settings : Settings} {targets : Option (List String)} {t : NameTable}
    {s : DescriptorSet} {modules : List (String × List Item)}
    {P : List FileDescriptor → List (String × List Item) → Prop}
    (h : generatedModules settings targets t s.files = .ok modules) (start : P [] [])
    (pass : ∀ done f modules, FileItems.items ⟨t, f⟩ = .ok [] → P done modules →
      P (done ++ [f]) modules)
    (add : ∀ done f items modules, FileItems.items ⟨t, f⟩ = .ok items → items ≠ [] →
      P done modules → P (done ++ [f]) (addToModule f.moduleIdent.text items modules)) :
    P (s.generatedFiles settings targets) modules := by
  refine foldlM_ok (P := fun done modules =>
    P (done.filter fun f => settings.generates targets (f.name.getD "") f) modules) h start ?_
  intro done f modules modules' hdone hstep
  obtain ⟨name, hname, hstep⟩ := bind_eq_ok.1 hstep
  rw [List.filter_append, List.filter_singleton, NameTable.required_eq_ok hname, Option.getD_some]
  split at hstep
  · rename_i hgenerates
    obtain ⟨_, -, hstep⟩ := bind_eq_ok.1 hstep
    obtain ⟨items, hitems, hstep⟩ := bind_eq_ok.1 hstep
    rw [hgenerates, cond_true]
    cases items with
    | nil =>
      cases hstep
      exact pass _ f _ hitems hdone
    | cons i rest =>
      cases hstep
      exact add _ f _ _ hitems (List.cons_ne_nil i rest) hdone
  · rename_i hgenerates
    cases hstep
    rwa [Bool.eq_false_of_not_eq_true hgenerates, cond_false, List.append_nil]

/-- Modules ascend by name, and hold the items of each file that code is generated for. -/
theorem generatedModules_items {settings : Settings} {targets : Option (List String)} {t : NameTable}
    {s : DescriptorSet} {modules : List (String × List Item)}
    (h : generatedModules settings targets t s.files = .ok modules) :
    Ascending modules ∧ ∃ made : List (FileDescriptor × List Item),
      made.map (·.1) = s.generatedFiles settings targets ∧
      (∀ p ∈ made, FileItems.items ⟨t, p.1⟩ = .ok p.2) ∧
      (placedItems modules).Perm (made.flatMap fun p => p.2.map fun i => (p.1.moduleIdent.text, i)) := by
  have hmore : ∀ {done f items} {made : List (FileDescriptor × List Item)},
      FileItems.items ⟨t, f⟩ = .ok items → made.map (·.1) = done →
      (∀ p ∈ made, FileItems.items ⟨t, p.1⟩ = .ok p.2) →
      (made ++ [(f, items)]).map (·.1) = done ++ [f] ∧
        ∀ p ∈ made ++ [(f, items)], FileItems.items ⟨t, p.1⟩ = .ok p.2 := by
    intro done f items made hitems hfiles hmade
    rw [List.map_append, hfiles, List.map_singleton, List.forall_mem_append,
      List.forall_mem_singleton]
    exact ⟨rfl, hmade, hitems⟩
  -- Modules ascend, so what is added to one of them is in front of no other items of that name.
  refine generatedModules_induct (P := fun done modules => Ascending modules ∧
    ∃ made : List (FileDescriptor × List Item), made.map (·.1) = done ∧
      (∀ p ∈ made, FileItems.items ⟨t, p.1⟩ = .ok p.2) ∧
      (placedItems modules).Perm
        (made.flatMap fun p => p.2.map fun i => (p.1.moduleIdent.text, i))) h ?_ ?_ ?_
  · exact ⟨List.Pairwise.nil, [], rfl, by simp, .refl _⟩
  · rintro done f modules hitems ⟨hascending, made, hfiles, hmade, hperm⟩
    obtain ⟨hfiles, hmade⟩ := hmore hitems hfiles hmade
    exact ⟨hascending, _, hfiles, hmade, by simpa using hperm⟩
  · rintro done f items modules hitems - ⟨hascending, made, hfiles, hmade, hperm⟩
    obtain ⟨hfiles, hmade⟩ := hmore hitems hfiles hmade
    refine ⟨hascending.insertByKey _, _, hfiles, hmade, (addToModule_placed hascending).trans ?_⟩
    rw [List.flatMap_append, List.flatMap_singleton]
    exact hperm.append_right _

theorem generatedModules_emits {settings : Settings} {targets : Option (List String)} {t : NameTable}
    {s : DescriptorSet} {modules : List (String × List Item)}
    (h : generatedModules settings targets t s.files = .ok modules) :
    ∃ models, (itemsModels (modules.flatMap (·.2))).Perm models ∧
      t.Emits ((s.generatedFiles settings targets).flatMap (·.declaredMessages))
        ((s.generatedFiles settings targets).flatMap (·.listedMessages)) models := by
  obtain ⟨-, made, hfiles, hmade, hperm⟩ := generatedModules_items h
  refine ⟨itemsModels (made.flatMap (·.2)), ?_, ?_⟩
  · rw [← map_snd_placedItems, itemsModels_eq_flatMap, itemsModels_eq_flatMap]
    have hitems := hperm.map (·.2)
    simp only [List.map_flatMap, List.map_map, Function.comp_def, List.map_id'] at hitems
    exact hitems.flatMap_right _
  · rw [← hfiles]
    clear hfiles hperm
    induction made with
    | nil =>
      rw [List.flatMap_nil, itemsModels]
      exact .nil
    | cons p made ih =>
      obtain ⟨hp, hrest⟩ := List.forall_mem_cons.1 hmade
      rw [List.map_cons, List.flatMap_cons, List.flatMap_cons, List.flatMap_cons, itemsModels_append]
      exact (FileItems.items_emits hp).append (ih hrest)

/-! ## The fields of generated messages -/

theorem FileDescriptor.declaredMessages_sublist (f : FileDescriptor) :
    f.declaredMessages.Sublist f.listedMessages := by
  rw [declaredMessages, nestedMessages_eq]
  exact List.filter_sublist.flatMap _

namespace DescriptorSet

/-- The messages that have a generated type, under their fully-qualified names. -/
def emittedMessages (s : DescriptorSet) (settings : Settings) (targets : Option (List String))
    (t : NameTable) : List (String × MessageDescriptor) :=
  ((s.generatedFiles settings targets).flatMap (·.declaredMessages)).filter (t.isGenerated ·.1)

/-- No two messages of a schema have a name. -/
def NamesOnce (s : DescriptorSet) (typeName : String) : Prop :=
  ((s.files.flatMap (·.listedMessages)).map (·.1)).count typeName ≤ 1

theorem NamesOnce.count_declared {s : DescriptorSet} {typeName : String} (h : s.NamesOnce typeName) :
    (s.declaredMessages.map (·.1)).count typeName ≤ 1 := by
  refine (List.Sublist.count_le _ (List.Sublist.map _ ?_)).trans h
  rw [declaredMessages]
  induction s.files with
  | nil => exact .slnil
  | cons f files ih =>
    rw [List.flatMap_cons, List.flatMap_cons]
    exact f.declaredMessages_sublist.append ih

theorem HasDistinctDeclarations.once {s : DescriptorSet} (h : s.HasDistinctDeclarations)
    (typeName : String) : s.NamesOnce typeName := by
  have hlisted : (s.files.flatMap (·.listedMessages)).Sublist s.allMessages := by
    refine List.Sublist.flatMap_right _ fun f _ => ?_
    rw [FileDescriptor.listedMessages, FileDescriptor.allMessages, allMessagesIn_eq]
    exact List.Sublist.flatMap_right _ fun m _ => m.messages_sublist f.scope
  exact List.nodup_iff_count_le_one.1 ((hlisted.map _).nodup (List.nodup_append'.1 h).1) typeName

/-- Code is generated for a message that neither the runtime library nor the settings have. -/
theorem mem_emittedMessages_of_declared {s : DescriptorSet} {settings : Settings}
    {targets : Option (List String)} {t : NameTable} (ht : NameTable.ofFiles settings s = .ok t)
    (distinct : s.HasDistinctDeclarations) {f : FileDescriptor}
    (hf : f ∈ s.generatedFiles settings targets) {e : String × MessageDescriptor}
    (he : e ∈ f.declaredMessages)
    (hpath : ∀ module ident,
      (NameTable.contextOf settings f).pathOf e.1 module ident = .generated module ident) :
    e ∈ s.emittedMessages settings targets t := by
  have htype : e.1 ∈ f.typeNames := List.mem_append_left _ (List.mem_map_of_mem he)
  obtain ⟨site, -, -, hentry⟩ :=
    NameTable.ofFiles_typeName ht distinct (List.mem_of_mem_filter hf) htype
  rw [hpath] at hentry
  have hgenerated : t.isGenerated e.1 := by rw [NameTable.isGenerated, hentry]
  exact List.mem_filter.2 ⟨List.mem_flatMap.2 ⟨f, hf, he⟩, hgenerated⟩

end DescriptorSet

namespace NameTable

variable {t : NameTable} {sure listed : List (String × MessageDescriptor)}
  {models : List MessageModel} {e : String × MessageDescriptor}

/-- A message whose name no other has is given one model. -/
theorem Emits.unique (h : t.Emits sure listed models)
    (hnames : ∀ e ∈ sure, e.1 ∈ t.messages.map (·.1)) (he : e ∈ sure) (hgenerated : t.isGenerated e.1)
    (once : (listed.map (·.1)).count e.1 ≤ 1) :
    ∃ model, t.Makes e model ∧ models.filter (·.typeName = e.1) = [model] := by
  obtain ⟨es, hmakes, hlisted, hsure⟩ := h
  have hfilter : List.Forall₂ t.Makes (es.filter (·.1 = e.1)) (models.filter (·.typeName = e.1)) := by
    refine List.rel_filter ?_ hmakes
    rintro d model ⟨file, module, path, hmodel⟩
    simp only [MessageContext.messageModel_typeName hmodel]
  have hlength : (es.filter (·.1 = e.1)).length ≤ 1 := by
    have hcount := ((hlisted.trans List.filter_sublist).map (·.1)).count_le e.1
    rw [List.count, List.countP_map, List.countP_eq_length_filter] at hcount
    exact hcount.trans once
  have hmem : e ∈ es.filter (·.1 = e.1) :=
    List.mem_filter.2 ⟨(hsure hnames).subset (List.mem_filter.2 ⟨he, hgenerated⟩), by simp⟩
  obtain ⟨d, hd⟩ := List.length_eq_one_iff.1 (hlength.antisymm (List.length_pos_of_mem hmem))
  rw [hd, List.mem_singleton] at hmem
  subst hmem
  rw [hd] at hfilter
  obtain ⟨model, rest, hmodel, hrest, heq⟩ := List.forall₂_cons_left_iff.1 hfilter
  rw [List.forall₂_nil_left_iff.1 hrest] at heq
  exact ⟨model, hmodel, heq⟩

end NameTable

/-- A message whose name no other has, and whose type is generated, has one model among the
    items of the modules, with exactly one place for each field that places are made for. -/
theorem generatedModules_keeps {settings : Settings} {targets : Option (List String)}
    {s : DescriptorSet} {t : NameTable} {modules : List (String × List Item)}
    (ht : NameTable.ofFiles settings s = .ok t)
    (h : generatedModules settings targets t s.files = .ok modules) {e : String × MessageDescriptor}
    (he : e ∈ s.emittedMessages settings targets t) (once : s.NamesOnce e.1) :
    ∃ model, (itemsModels (modules.flatMap (·.2))).filter (·.typeName = e.1) = [model] ∧
      model.Keeps t e.2 (e.2.fields.filter e.2.hasPlace) := by
  obtain ⟨he, hgenerated⟩ := List.mem_filter.1 he
  obtain ⟨hnamed, hcount⟩ := NameTable.ofFiles_named ht
  obtain ⟨models, hperm, hemits⟩ := generatedModules_emits h
  have hfiles : (s.generatedFiles settings targets).Sublist s.files := List.filter_sublist
  have hdeclared : ∀ d ∈ (s.generatedFiles settings targets).flatMap (·.declaredMessages),
      d ∈ s.declaredMessages := fun d hd => (hfiles.flatMap _).subset hd
  have honce := (((hfiles.flatMap (·.listedMessages)).map (·.1)).count_le e.1).trans once
  obtain ⟨model, ⟨file, module, path, hmodel⟩, hunique⟩ := hemits.unique
    (fun d hd => by
      obtain ⟨names, hmem, -⟩ := hnamed d (hdeclared d hd)
      exact List.mem_map_of_mem hmem)
    he hgenerated honce
  refine ⟨model, List.perm_singleton.1 (hunique ▸ hperm.filter _), ?_⟩
  obtain ⟨names, hmem, idents, scope, hown⟩ := hnamed e (hdeclared e he)
  exact MessageContext.messageModel_keeps
    (entryOf?_of_count hmem ((hcount e.1).trans_le once.count_declared)) hown hmodel

end Protobuf
