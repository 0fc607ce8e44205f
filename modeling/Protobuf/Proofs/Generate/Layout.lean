import Protobuf.Proofs.Generate.Emission
import Protobuf.Proofs.Names.MapEntries
import Protobuf.Proofs.Names.Sites

/-! # The layout of generated modules

The structs and enums of a schema stand at the sites that the table of names gives them, those of
generated types and no others, and no two things that are declared in a module have one word.

* `Item.sites`, `Item.paths`: where items declare types, and the words that lead to what they
  declare.
* `NameTable.Lays`: items stand at sites, under words of their own.
* `FileItems.items_lays`: the items of a file.
* `generatedModules_sites`, `generatedModules_nodup_paths`: the items of all modules.
-/

namespace Protobuf

mutual

def Item.sites (module : List Ident) : Item → List Site
  | .message m =>
    [{ typeName := m.typeName
       kind := .message
       module
       ident := m.ident
       partialIdent := some m.partialIdent }]
  | .oneof _ => []
  | .enumeration e => [{ typeName := e.typeName, kind := .enumeration, module, ident := e.ident }]
  | .module ident items => itemsSites (module ++ [ident]) items

def itemsSites (module : List Ident) : List Item → List Site
  | [] => []
  | i :: rest => i.sites module ++ itemsSites module rest

end

def Item.words : Item → List String
  | .message m => [m.ident.word, m.partialIdent.word]
  | .oneof o => [o.ident.word]
  | .enumeration e => [e.ident.word]
  | .module ident _ => [ident.word]

def itemsWords (items : List Item) : List String := items.flatMap (·.words)

mutual

/-- The words that lead to what an item of a module declares: structs, partial structs, enums,
    the enums of oneofs, and modules with what they hold. -/
def Item.paths (module : List Ident) : Item → List (List String)
  | .module ident items =>
    (module.map (·.word) ++ [ident.word]) :: itemsPaths (module ++ [ident]) items
  | .message m => [module.map (·.word) ++ [m.ident.word], module.map (·.word) ++ [m.partialIdent.word]]
  | .oneof o => [module.map (·.word) ++ [o.ident.word]]
  | .enumeration e => [module.map (·.word) ++ [e.ident.word]]

def itemsPaths (module : List Ident) : List Item → List (List String)
  | [] => []
  | i :: rest => i.paths module ++ itemsPaths module rest

end

mutual

/-- No two items inside a module have one word, in the module of an item and in those inside. -/
def Item.IsScoped : Item → Prop
  | .module _ items => (itemsWords items).Nodup ∧ ItemsScoped items
  | .message _ => True
  | .oneof _ => True
  | .enumeration _ => True

def ItemsScoped : List Item → Prop
  | [] => True
  | i :: rest => i.IsScoped ∧ ItemsScoped rest

end

section

variable {module : List Ident} {items items' : List Item}

theorem itemsSites_eq_flatMap (module : List Ident) (items : List Item) :
    itemsSites module items = items.flatMap (·.sites module) := by
  induction items with
  | nil => rw [itemsSites, List.flatMap_nil]
  | cons i rest ih => rw [itemsSites, List.flatMap_cons, ih]

theorem itemsSites_append (module : List Ident) (items items' : List Item) :
    itemsSites module (items ++ items') = itemsSites module items ++ itemsSites module items' := by
  simp only [itemsSites_eq_flatMap, List.flatMap_append]

theorem itemsWords_append (items items' : List Item) :
    itemsWords (items ++ items') = itemsWords items ++ itemsWords items' := List.flatMap_append

theorem itemsScoped_iff : ItemsScoped items ↔ ∀ i ∈ items, i.IsScoped := by
  induction items with
  | nil => simp [ItemsScoped]
  | cons i rest ih => rw [ItemsScoped, ih, List.forall_mem_cons]

theorem itemsScoped_append : ItemsScoped (items ++ items') ↔ ItemsScoped items ∧ ItemsScoped items' := by
  simp only [itemsScoped_iff, List.forall_mem_append]

end

/-! ## Paths -/

mutual

/-- What an item declares stands under the words of the item. -/
theorem Item.under_of_mem_paths {path : List String} {module : List Ident} :
    {i : Item} → path ∈ i.paths module → Under module i.words path
  | .message m, h => by
    rw [Item.paths] at h
    rcases List.mem_cons.1 h with rfl | h
    · exact ⟨m.ident.word, by simp [Item.words], List.prefix_rfl⟩
    · rw [List.mem_singleton.1 h]
      exact ⟨m.partialIdent.word, by simp [Item.words], List.prefix_rfl⟩
  | .oneof o, h => by
    rw [Item.paths, List.mem_singleton] at h
    exact ⟨o.ident.word, by simp [Item.words], h ▸ List.prefix_rfl⟩
  | .enumeration e, h => by
    rw [Item.paths, List.mem_singleton] at h
    exact ⟨e.ident.word, by simp [Item.words], h ▸ List.prefix_rfl⟩
  | .module ident items, h => by
    rw [Item.paths] at h
    rw [Item.words]
    rcases List.mem_cons.1 h with rfl | h
    · exact ⟨ident.word, List.mem_singleton_self _, List.prefix_rfl⟩
    · exact (under_of_mem_itemsPaths h).outside

theorem under_of_mem_itemsPaths {path : List String} {module : List Ident} :
    {items : List Item} → path ∈ itemsPaths module items → Under module (itemsWords items) path
  | [], h => by
    rw [itemsPaths] at h
    cases h
  | i :: rest, h => by
    rw [itemsPaths] at h
    rw [itemsWords, List.flatMap_cons]
    rcases List.mem_append.1 h with h | h
    · exact (Item.under_of_mem_paths h).subset (List.subset_append_left ..)
    · exact (under_of_mem_itemsPaths h).subset (List.subset_append_right ..)

end

theorem not_mem_itemsPaths_inside (module : List Ident) (ident : Ident) (items : List Item) :
    module.map (·.word) ++ [ident.word] ∉ itemsPaths (module ++ [ident]) items := by
  intro h
  -- What lies in the module has at least one word more.
  obtain ⟨word, -, hprefix⟩ := under_of_mem_itemsPaths h
  have hlength := hprefix.length_le
  simp at hlength

mutual

/-- Items whose words are distinct, level by level, declare nothing twice. -/
theorem Item.nodup_paths {module : List Ident} :
    {i : Item} → i.words.Nodup → i.IsScoped → (i.paths module).Nodup
  | .message m, h, _ => by
    rw [Item.words] at h
    rw [Item.paths]
    simpa using h
  | .oneof _, _, _ => by
    rw [Item.paths]
    exact List.nodup_singleton _
  | .enumeration _, _, _ => by
    rw [Item.paths]
    exact List.nodup_singleton _
  | .module ident items, _, h => by
    rw [Item.IsScoped] at h
    rw [Item.paths, List.nodup_cons]
    exact ⟨not_mem_itemsPaths_inside module ident items, nodup_itemsPaths h.1 h.2⟩

theorem nodup_itemsPaths {module : List Ident} :
    {items : List Item} → (itemsWords items).Nodup → ItemsScoped items → (itemsPaths module items).Nodup
  | [], _, _ => by
    rw [itemsPaths]
    exact List.nodup_nil
  | i :: rest, hwords, hscoped => by
    rw [itemsWords, List.flatMap_cons] at hwords
    obtain ⟨hi, hrest, hdisjoint⟩ := List.nodup_append'.1 hwords
    rw [ItemsScoped] at hscoped
    rw [itemsPaths]
    refine List.nodup_append'.2 ⟨Item.nodup_paths hi hscoped.1, nodup_itemsPaths hrest hscoped.2, ?_⟩
    intro path hpath hpath'
    exact not_under_of_disjoint hdisjoint (Item.under_of_mem_paths hpath)
      (under_of_mem_itemsPaths hpath')

end

def Site.paths (site : Site) : List (List String) :=
  (site.ident :: site.partialIdent.toList).map fun i => site.module.map (·.word) ++ [i.word]

mutual

theorem Item.mem_paths_of_mem_sites {site : Site} {path : List String} (hpath : path ∈ site.paths)
    {module : List Ident} : {i : Item} → site ∈ i.sites module → path ∈ i.paths module
  | .message m, h => by
    rw [Item.sites, List.mem_singleton] at h
    subst h
    rw [Item.paths]
    simpa [Site.paths] using hpath
  | .oneof _, h => by
    rw [Item.sites] at h
    cases h
  | .enumeration e, h => by
    rw [Item.sites, List.mem_singleton] at h
    subst h
    rw [Item.paths]
    simpa [Site.paths] using hpath
  | .module _ items, h => by
    rw [Item.sites] at h
    rw [Item.paths]
    exact List.mem_cons_of_mem _ (mem_itemsPaths_of_mem_sites hpath h)

theorem mem_itemsPaths_of_mem_sites {site : Site} {path : List String} (hpath : path ∈ site.paths)
    {module : List Ident} : {items : List Item} → site ∈ itemsSites module items →
      path ∈ itemsPaths module items
  | [], h => by
    rw [itemsSites] at h
    cases h
  | i :: rest, h => by
    rw [itemsSites] at h
    rw [itemsPaths]
    rcases List.mem_append.1 h with h | h
    · exact List.mem_append_left _ (Item.mem_paths_of_mem_sites hpath h)
    · exact List.mem_append_right _ (mem_itemsPaths_of_mem_sites hpath h)

end

/-! ## Items at their sites -/

theorem Ident.checked_eq {i j : Ident} (h : i.checked = .ok j) : j = i := by
  unfold checked at h
  split at h
  · exact (Except.ok.inj h).symm
  · cases h

namespace MessageContext

variable {ctx : MessageContext} {names : MessageNames} {m : MessageDescriptor}

theorem oneofModel_ident {module : Ident} {fields : List FieldDescriptor} {g : OneofGroup}
    {oneofNames : OneofNames} {o : OneofModel} (h : ctx.oneofModel module fields g oneofNames = .ok o) :
    o.ident = oneofNames.ident := by
  obtain ⟨name, -, h⟩ := bind_eq_ok.1 h
  obtain ⟨checkedModule, -, h⟩ := bind_eq_ok.1 h
  obtain ⟨ident, hident, h⟩ := bind_eq_ok.1 h
  obtain ⟨variants, -, h⟩ := bind_eq_ok.1 h
  obtain ⟨field, -, h⟩ := bind_eq_ok.1 h
  cases h
  exact Ident.checked_eq hident

/-- The model of a message has the identifiers that the table has for the message and its
    oneofs. -/
theorem messageModel_idents {model : MessageModel}
    (hnames : entryOf? ctx.typeName ctx.table.messages = some names) (hdistinct : names.Distinct m)
    (h : ctx.messageModel m = .ok model) :
    model.ident = names.ident ∧ model.partialIdent = names.partialIdent ∧
      model.oneofs.map (·.ident) = names.oneofs.map (·.2.ident) := by
  simp only [messageModel, hnames] at h
  obtain ⟨fields, -, h⟩ := bind_eq_ok.1 h
  obtain ⟨oneofs, honeofs, h⟩ := bind_eq_ok.1 h
  obtain ⟨ident, hident, h⟩ := bind_eq_ok.1 h
  obtain ⟨partialIdent, hpartial, h⟩ := bind_eq_ok.1 h
  cases h
  refine ⟨Ident.checked_eq hident, Ident.checked_eq hpartial, ?_⟩
  -- Both lists of oneofs follow the groups of the message.
  have hall := forall₂_of_foldlM (R := fun (g : OneofGroup) (o : OneofModel) =>
    ∃ oneofNames, (g.index, oneofNames) ∈ names.oneofs ∧ o.ident = oneofNames.ident)
    (fun _ => true) honeofs ?_
  · rw [List.filter_true] at hall
    have hkeys : (names.oneofs.map (·.1)).Nodup := by
      have hindex : m.oneofGroups.map (·.index) = names.oneofs.map (·.1) :=
        List.forall₂_eq_eq_eq ▸ List.rel_map (fun _ _ hd => hd.index.symm) hdistinct.oneofs
      exact hindex ▸ nodup_index_oneofGroups m
    refine map_eq_of_forall₂ hall hdistinct.oneofs fun g o e he ho hd => ?_
    obtain ⟨oneofNames, hmem, hident⟩ := ho
    have hsame := List.inj_on_of_nodup_map hkeys hmem he hd.index.symm
    rw [hident, ← hsame]
  intro g hg oneofs oneofs' hstep
  obtain ⟨oneofNames, hentry, -⟩ := hdistinct.oneof hg
  simp only [hentry] at hstep
  obtain ⟨o, ho, hstep⟩ := bind_eq_ok.1 hstep
  cases hstep
  simp only [if_true]
  exact ⟨o, ⟨oneofNames, mem_of_entryOf? hentry, oneofModel_ident ho⟩, rfl⟩

end MessageContext

theorem nestedMessages_append (scope : String) (messages messages' : List MessageDescriptor) :
    nestedMessages scope (messages ++ messages') =
      nestedMessages scope messages ++ nestedMessages scope messages' := by
  simp only [nestedMessages_eq, List.filter_append, List.flatMap_append]

namespace NameTable

/-- Items stand in a module at the sites, among some, of the types that are generated, under
    some of given words, and nothing inside them is declared twice. -/
structure Lays (t : NameTable) (module : List Ident) (sites : List Site) (words : List String)
    (items : List Item) : Prop where
  sites : itemsSites module items = sites.filter (t.isGenerated ·.typeName)
  words : (itemsWords items).Sublist words
  apart : ItemsScoped items

variable {t : NameTable} {module : List Ident} {sites sites' : List Site} {words words' : List String}
  {items items' : List Item}

theorem Lays.empty (h : ∀ site ∈ sites, t.isGenerated site.typeName = false) :
    t.Lays module sites words [] where
  sites := by
    rw [itemsSites, List.filter_eq_nil_iff.2 fun site hsite => by simp [h site hsite]]
  words := List.nil_sublist _
  apart := by rw [ItemsScoped]; trivial

theorem Lays.nil : t.Lays module [] words [] := .empty (by simp)

theorem Lays.append (h : t.Lays module sites words items) (h' : t.Lays module sites' words' items') :
    t.Lays module (sites ++ sites') (words ++ words') (items ++ items') where
  sites := by rw [itemsSites_append, h.sites, h'.sites, List.filter_append]
  words := by
    rw [itemsWords_append]
    exact h.words.append h'.words
  apart := itemsScoped_append.2 ⟨h.apart, h'.apart⟩

/-- Items inside a message are put into its module if there are any. -/
theorem Lays.inside {own inner : List Item} {i : Ident}
    (hitems : (match inner with
      | [] => return own
      | inner => return own ++ [.module (← i.checked) inner] : Except GenerateError (List Item)) =
        .ok items)
    (h : t.Lays module sites words own) (hinner : t.Lays (module ++ [i]) sites' words' inner)
    (nodup : words'.Nodup) :
    t.Lays module (sites ++ sites') (words ++ [i.word]) items := by
  cases inner with
  | nil =>
    cases hitems
    have hnone := hinner.sites
    rw [itemsSites] at hnone
    refine ⟨?_, h.words.trans (List.sublist_append_left ..), h.apart⟩
    rw [h.sites, List.filter_append, ← hnone, List.append_nil]
  | cons item inner =>
    obtain ⟨ident, hident, hitems⟩ := bind_eq_ok.1 hitems
    cases hitems
    rw [Ident.checked_eq hident]
    refine h.append ⟨?_, List.Sublist.refl _, ?_⟩
    · rw [itemsSites, Item.sites, itemsSites, List.append_nil, hinner.sites]
    · rw [ItemsScoped, Item.IsScoped, ItemsScoped]
      exact ⟨⟨hinner.words.nodup nodup, hinner.apart⟩, trivial⟩

theorem messagesIn_cons {scope name : String} {m : MessageDescriptor} (hname : m.name = some name)
    (hentry : m.isMapEntry = false) (rest : List MessageDescriptor) :
    messagesIn scope (m :: rest) = (scope ++ name, m) :: messagesIn scope rest := by
  rw [messagesIn, List.filter_cons_of_pos (by simp [hentry]),
    List.filterMap_cons_some (b := (scope ++ name, m)) (by rw [hname]; rfl)]
  rfl

theorem messagesIn_nil (scope : String) : messagesIn scope [] = [] := rfl

theorem messagesIn_append (scope : String) (messages messages' : List MessageDescriptor) :
    messagesIn scope (messages ++ messages') =
      messagesIn scope messages ++ messagesIn scope messages' := by
  simp only [messagesIn, List.filter_append, List.filterMap_append]

theorem messagesIn_cons_mapEntry {scope : String} {m : MessageDescriptor} (hentry : m.isMapEntry = true)
    (rest : List MessageDescriptor) : messagesIn scope (m :: rest) = messagesIn scope rest := by
  rw [messagesIn, List.filter_cons_of_neg (by simp [hentry]), messagesIn]

end NameTable

namespace FileItems

variable {fi : FileItems} {scope : String} {module : List Ident} {items : List Item}

theorem enums_lays {path : Nat → ElementPath} {es : List EnumDescriptor}
    (h : fi.enums scope path es = .ok items) :
    fi.table.Lays module (fi.table.enumSites scope module es)
      ((enumsIn scope es).flatMap fun d => fi.table.enumWords d.1) items := by
  have hall := foldlM_ok (P := fun (done : List (EnumDescriptor × Nat)) items =>
    fi.table.Lays module (fi.table.enumSites scope module (done.map (·.1)))
      ((enumsIn scope (done.map (·.1))).flatMap fun d => fi.table.enumWords d.1) items) h .nil ?_
  · rwa [List.zipIdx_map_fst] at hall
  rintro done ⟨e, index⟩ items items' hdone hstep
  obtain ⟨name, hname, hstep⟩ := bind_eq_ok.1 hstep
  replace hname := NameTable.required_eq_ok hname
  rw [List.map_append, List.map_singleton, NameTable.enumSites_append, enumsIn_append,
    List.flatMap_append, NameTable.enumSites_singleton _ hname, enumsIn_cons hname, List.flatMap_cons,
    NameTable.enumWords]
  simp only at hstep
  split at hstep
  · rename_i names hnames
    rw [hnames]
    split at hstep
    · rename_i hgenerated
      obtain ⟨model, hmodel, hstep⟩ := bind_eq_ok.1 hstep
      cases hstep
      obtain ⟨ident, hident, hmodel⟩ := bind_eq_ok.1 hmodel
      obtain ⟨values, -, hmodel⟩ := bind_eq_ok.1 hmodel
      cases hmodel
      rw [Ident.checked_eq hident]
      refine hdone.append ⟨?_, ?_, ?_⟩
      · simp [itemsSites, Item.sites, hgenerated]
      · simp [itemsWords, Item.words]
      · simp [ItemsScoped, Item.IsScoped]
    · rename_i hgenerated
      cases hstep
      rw [← List.append_nil items]
      exact hdone.append (.empty (by simpa using hgenerated))
  · rename_i hnone
    cases hstep
    rw [hnone, ← List.append_nil items]
    exact hdone.append (.empty (by simp))

/-- The struct and partial struct of a generated message, and the enums of its oneofs. -/
theorem model?_lays {typeName : String} {path : ElementPath} {m : MessageDescriptor}
    {model : Option MessageModel} {names : MessageNames}
    (hnames : entryOf? typeName fi.table.messages = some names) (hdistinct : names.Distinct m)
    (h : fi.model? typeName module path m = .ok model) :
    fi.table.Lays module
        [{ typeName, kind := .message, module, ident := names.ident,
           partialIdent := some names.partialIdent }]
        [names.ident.word, names.partialIdent.word] (model.toList.map .message) ∧
      ∀ inner, fi.table.Lays inner [] (names.oneofs.map (·.2.ident.word))
        (model.toList.flatMap fun model => model.oneofs.map .oneof) := by
  unfold model? at h
  split at h
  · rename_i hgenerated
    obtain ⟨model, hmodel, h⟩ := bind_eq_ok.1 h
    cases h
    obtain ⟨hident, hpartial, honeofs⟩ := MessageContext.messageModel_idents hnames hdistinct hmodel
    have hname := MessageContext.messageModel_typeName hmodel
    have hwords : model.oneofs.map (·.ident.word) = names.oneofs.map (·.2.ident.word) := by
      have hidents := congrArg (List.map Ident.word) honeofs
      rw [List.map_map, List.map_map] at hidents
      exact hidents
    constructor
    · constructor
      case sites => simp [itemsSites, Item.sites, hname, hident, hpartial, hgenerated]
      case words => simp [itemsWords, Item.words, hident, hpartial]
      case apart => simp [ItemsScoped, Item.IsScoped]
    · intro inner
      constructor
      case sites => simp [itemsSites_eq_flatMap, List.flatMap_map, Item.sites]
      case words =>
        rw [← hwords]
        simp [itemsWords, List.flatMap_map, Item.words, ← List.map_eq_flatMap]
      case apart => simp [itemsScoped_iff, Item.IsScoped]
  · rename_i hgenerated
    cases h
    exact ⟨.empty (by simpa using hgenerated), fun inner => .empty (by simp)⟩

mutual

/-- A message and what is declared inside it. -/
theorem message_lays {scope name : String} {module : List Ident} {path : ElementPath} :
    {m : MessageDescriptor} → {items : List Item} → m.name = some name →
      (∀ e ∈ m.messages scope, fi.table.Settles e) →
      message fi (scope ++ name) module path m = .ok items →
      fi.table.Lays module (fi.table.messageSites scope module m)
        (fi.table.messageWords (scope ++ name)) items
  | ⟨_, fields, nestedTypes, enumTypes, options, oneofs⟩, items, hname, hsettled, h => by
    rw [MessageDescriptor.messages_eq hname, List.forall_mem_cons] at hsettled
    obtain ⟨⟨names, hnames, hdistinct, hnodup⟩, hnested⟩ := hsettled
    rw [message_eq, hnames] at h
    obtain ⟨model, hmodel, h⟩ := bind_eq_ok.1 h
    obtain ⟨enumItems, henums, h⟩ := bind_eq_ok.1 h
    obtain ⟨messageItems, hmessages, h⟩ := bind_eq_ok.1 h
    obtain ⟨hown, honeofs⟩ := model?_lays hnames hdistinct hmodel
    have hinner := ((honeofs (module ++ [names.module])).append (enums_lays henums)).append
      (nested_lays hnested hmessages)
    rw [List.nil_append, List.append_assoc, ← NameTable.moduleWords] at hinner
    have hall := NameTable.Lays.inside h hown hinner (List.perm_append_comm.nodup_iff.1 hnodup)
    rw [NameTable.messageSites_eq hname hnames, NameTable.messageWords, hnames]
    exact hall

/-- The messages that are declared inside one. -/
theorem nested_lays {scope : String} {module : List Ident} {path : ElementPath} :
    {index : Nat} → {ms : List MessageDescriptor} → {items : List Item} →
      (∀ e ∈ nestedMessages scope ms, fi.table.Settles e) →
      nested fi scope module path index ms = .ok items →
      fi.table.Lays module (fi.table.nestedSites scope module ms)
        ((NameTable.messagesIn scope ms).flatMap fun d => fi.table.messageWords d.1) items
  | _, [], _, _, h => by
    rw [nested_nil] at h
    cases h
    rw [NameTable.nestedSites]
    exact .nil
  | _, m :: rest, items, hsettled, h => by
    rw [nestedMessages] at hsettled
    rw [NameTable.nestedSites]
    by_cases hentry : m.isMapEntry
    · rw [nested_cons, if_pos hentry] at h
      rw [if_pos hentry] at hsettled ⊢
      rw [NameTable.messagesIn_cons_mapEntry hentry]
      exact nested_lays hsettled h
    · obtain ⟨name, own, others, hname, hown, hothers, rfl⟩ := nested_cons_ok hentry h
      rw [if_neg hentry, List.forall_mem_append] at hsettled
      rw [if_neg hentry, NameTable.messagesIn_cons hname (by simpa using hentry), List.flatMap_cons]
      exact (message_lays hname hsettled.1 hown).append (nested_lays hsettled.2 hothers)

end

/-- The items of a file stand at the sites of what the file declares, if no map entry at its top
    has the name of a message. -/
theorem items_lays (h : fi.items = .ok items)
    (hsettled : ∀ e ∈ fi.file.declaredMessages, fi.table.Settles e)
    (hentries : ∀ e ∈ fi.file.declaredMapEntries, e.1 ∉ fi.table.messages.map (·.1)) :
    fi.table.Lays [fi.file.moduleIdent] (fi.table.fileSites fi.file)
      (fi.table.moduleWords fi.file.scope fi.file.messageTypes fi.file.enumTypes) items := by
  obtain ⟨enumItems, henums, h⟩ := bind_eq_ok.1 h
  obtain ⟨messageItems, hmessages, h⟩ := bind_eq_ok.1 h
  cases h
  refine (enums_lays henums).append ?_
  have hall := foldlM_ok (P := fun (done : List (MessageDescriptor × Nat)) items =>
    (∀ e ∈ nestedMessages fi.file.scope (done.map (·.1)), fi.table.Settles e) →
    (∀ e ∈ mapEntriesIn fi.file.scope (done.map (·.1)), e.1 ∉ fi.table.messages.map (·.1)) →
    fi.table.Lays [fi.file.moduleIdent]
      (fi.table.nestedSites fi.file.scope [fi.file.moduleIdent] (done.map (·.1)))
      ((NameTable.messagesIn fi.file.scope (done.map (·.1))).flatMap fun d =>
        fi.table.messageWords d.1) items) hmessages ?_ ?_
  · rw [List.zipIdx_map_fst] at hall
    exact hall hsettled fun e he => hentries e (List.mem_append_left _ he)
  · intro _ _
    rw [List.map_nil, NameTable.nestedSites]
    exact .nil
  rintro done ⟨m, index⟩ items items' hdone hstep
  obtain ⟨name, hname, hstep⟩ := bind_eq_ok.1 hstep
  obtain ⟨own, hown, hstep⟩ := bind_eq_ok.1 hstep
  cases hstep
  replace hname := NameTable.required_eq_ok hname
  rw [List.map_append, List.map_singleton, nestedMessages_append, mapEntriesIn_append,
    NameTable.nestedSites_append, NameTable.messagesIn_append, List.flatMap_append,
    List.forall_mem_append, List.forall_mem_append]
  intro hsettled hentries
  refine (hdone hsettled.1 hentries.1).append ?_
  cases hentry : m.isMapEntry with
  | true =>
    -- The table has no message under the name of a map entry.
    rw [mapEntriesIn_singleton hname hentry, List.forall_mem_singleton] at hentries
    rw [message_eq, entryOf?_eq_none_iff.2 hentries.2] at hown
    cases hown
    rw [NameTable.nestedSites, if_pos hentry, NameTable.nestedSites]
    exact .nil
  | false =>
    rw [nestedMessages, if_neg (by simp [hentry]), nestedMessages, List.append_nil] at hsettled
    rw [NameTable.nestedSites, if_neg (by simp [hentry]), NameTable.nestedSites, List.append_nil,
      NameTable.messagesIn_cons hname hentry, List.flatMap_cons, NameTable.messagesIn_nil,
      List.flatMap_nil, List.append_nil]
    exact message_lays hname hsettled.2 hown

end FileItems

/-! ## All modules -/

namespace NameTable

variable {settings : Settings} {s : DescriptorSet} {t : NameTable}

theorem ofFiles_not_mem_messages (h : ofFiles settings s = .ok t) (distinct : s.HasDistinctDeclarations) :
    ∀ e ∈ s.declaredMapEntries, e.1 ∉ t.messages.map (·.1) := by
  intro e he hmem
  have hcount := (ofFiles_named h).2 e.1
  rw [List.count_eq_zero.2 (distinct.not_mem_messages he)] at hcount
  exact List.count_eq_zero.1 hcount hmem

end NameTable

def moduleItems (modules : List (String × List Item)) : List Item :=
  modules.map fun e => .module ⟨e.1, false⟩ e.2

theorem itemsSites_moduleItems (modules : List (String × List Item)) :
    itemsSites [] (moduleItems modules) =
      (placedItems modules).flatMap fun p => p.2.sites [⟨p.1, false⟩] := by
  rw [itemsSites_eq_flatMap, moduleItems, List.flatMap_map, placedItems, List.flatMap_assoc]
  refine congrArg (List.flatMap · modules) (funext fun e => ?_)
  rw [Item.sites, itemsSites_eq_flatMap, List.flatMap_map, List.nil_append]

section

variable {settings : Settings} {targets : Option (List String)} {s : DescriptorSet} {t : NameTable}
  {modules : List (String × List Item)}

theorem DescriptorSet.generatedFiles_sublist (s : DescriptorSet) (settings : Settings)
    (targets : Option (List String)) : (s.generatedFiles settings targets).Sublist s.files :=
  List.filter_sublist

/-- The items of each file that code is generated for stand at the sites of the file. -/
theorem generatedModules_lays (ht : NameTable.ofFiles settings s = .ok t)
    (distinct : s.HasDistinctDeclarations)
    (h : generatedModules settings targets t s.files = .ok modules) :
    Ascending modules ∧ ∃ made : List (FileDescriptor × List Item),
      made.map (·.1) = s.generatedFiles settings targets ∧
      (∀ p ∈ made, t.Lays [p.1.moduleIdent] (t.fileSites p.1)
        (t.moduleWords p.1.scope p.1.messageTypes p.1.enumTypes) p.2) ∧
      (placedItems modules).Perm
        (made.flatMap fun p => p.2.map fun i => (p.1.moduleIdent.word, i)) := by
  obtain ⟨hascending, made, hfiles, hmade, hperm⟩ := generatedModules_items h
  simp only [NameTable.text_moduleIdent] at hperm
  refine ⟨hascending, made, hfiles, fun p hp => ?_, hperm⟩
  have hp' : p.1 ∈ s.files :=
    (s.generatedFiles_sublist settings targets).subset (hfiles ▸ List.mem_map_of_mem hp)
  refine FileItems.items_lays (hmade p hp) (fun e he => ?_) fun e he => ?_
  · exact NameTable.ofFiles_settles ht distinct.types e (List.mem_flatMap.2 ⟨_, hp', he⟩)
  · exact NameTable.ofFiles_not_mem_messages ht distinct e (List.mem_flatMap.2 ⟨_, hp', he⟩)

/-- The structs and enums of the modules stand at the sites of the generated types that files
    declare. -/
theorem generatedModules_sites (ht : NameTable.ofFiles settings s = .ok t)
    (distinct : s.HasDistinctDeclarations)
    (h : generatedModules settings targets t s.files = .ok modules) :
    (itemsSites [] (moduleItems modules)).Perm
      (((s.generatedFiles settings targets).flatMap t.fileSites).filter
        (t.isGenerated ·.typeName)) := by
  obtain ⟨-, made, hfiles, hmade, hperm⟩ := generatedModules_lays ht distinct h
  rw [itemsSites_moduleItems, ← hfiles, List.flatMap_map]
  refine (hperm.flatMap_right _).trans (.of_eq ?_)
  clear hfiles hperm
  induction made with
  | nil => rfl
  | cons p made ih =>
    obtain ⟨hp, hrest⟩ := List.forall_mem_cons.1 hmade
    rw [List.flatMap_cons, List.flatMap_append, ih hrest, List.flatMap_cons, List.filter_append,
      ← hp.sites, itemsSites_eq_flatMap, List.flatMap_map,
      NameTable.moduleIdent_eq_iff.2 rfl]

theorem map_snd_filter_map (name module : String) (items : List Item) :
    ((items.map fun i => (name, i)).filter (·.1 = module)).map (·.2) =
      if name = module then items else [] := by
  split <;> rename_i h <;> simp [List.filter_map, Function.comp_def, h]

theorem map_snd_filter_placed (made : List (FileDescriptor × List Item)) (module : String) :
    ((made.flatMap fun p => p.2.map fun i => (p.1.moduleIdent.word, i)).filter (·.1 = module)).map
        (·.2) = (made.filter (·.1.moduleIdent.word = module)).flatMap (·.2) := by
  induction made with
  | nil => rfl
  | cons p made ih =>
    rw [List.flatMap_cons, List.filter_append, List.map_append, ih, map_snd_filter_map]
    by_cases h : p.1.moduleIdent.word = module <;> simp [h]

theorem sublist_placedItems {e : String × List Item} (he : e ∈ modules) :
    (e.2.map fun i => (e.1, i)).Sublist (placedItems modules) := by
  have hone := (List.singleton_sublist.2 he).flatMap fun e => e.2.map fun i => (e.1, i)
  rwa [List.flatMap_singleton] at hone

/-- The items of a module have words of their own, whichever files they come from: these claimed
    them in one scope. -/
theorem generatedModules_nodup_words (ht : NameTable.ofFiles settings s = .ok t)
    (distinct : s.HasDistinctDeclarations)
    (h : generatedModules settings targets t s.files = .ok modules) {e : String × List Item}
    (he : e ∈ modules) : (itemsWords e.2).Nodup := by
  obtain ⟨-, made, hfiles, hmade, hperm⟩ := generatedModules_lays ht distinct h
  have hitems : e.2.Sublist (((placedItems modules).filter (·.1 = e.1)).map (·.2)) := by
    have hone := ((sublist_placedItems he).filter (·.1 = e.1)).map (·.2)
    rwa [map_snd_filter_map, if_pos rfl] at hone
  have hall := (hperm.filter (·.1 = e.1)).map (·.2)
  rw [map_snd_filter_placed] at hall
  refine (hitems.flatMap _).nodup ((hall.flatMap_right _).nodup_iff.2 ?_)
  have hwords : ((made.filter (·.1.moduleIdent.word = e.1)).flatMap fun p =>
      itemsWords p.2).Sublist ((made.filter (·.1.moduleIdent.word = e.1)).flatMap fun p =>
        t.moduleWords p.1.scope p.1.messageTypes p.1.enumTypes) :=
    List.Sublist.flatMap_right _ fun p hp => (hmade p (List.mem_of_mem_filter hp)).words
  rw [List.flatMap_assoc]
  refine hwords.nodup ?_
  have hgenerated : ((made.filter (·.1.moduleIdent.word = e.1)).map (·.1)).Sublist
      (s.files.filter (·.moduleIdent.word = e.1)) := by
    have hfilter := (s.generatedFiles_sublist settings targets).filter fun f =>
      decide (f.moduleIdent.word = e.1)
    rwa [← hfiles, List.filter_map, Function.comp_def] at hfilter
  rw [← List.flatMap_map (f := Prod.fst) (g := fun f : FileDescriptor =>
    t.moduleWords f.scope f.messageTypes f.enumTypes)]
  exact (hgenerated.flatMap _).nodup (NameTable.ofFiles_words ht distinct.types e.1)

/-- No two things that are declared in a module have one word, and neither have two modules. -/
theorem generatedModules_nodup_paths (ht : NameTable.ofFiles settings s = .ok t)
    (distinct : s.HasDistinctDeclarations)
    (h : generatedModules settings targets t s.files = .ok modules) :
    (itemsPaths [] (moduleItems modules)).Nodup := by
  obtain ⟨hascending, made, -, hmade, hperm⟩ := generatedModules_lays ht distinct h
  refine nodup_itemsPaths ?_ ?_
  · have hwords : itemsWords (moduleItems modules) = modules.map (·.1) := by
      rw [itemsWords, moduleItems, List.flatMap_map, List.map_eq_flatMap]
      rfl
    rw [hwords]
    exact hascending.nodup
  · rw [itemsScoped_iff, moduleItems, List.forall_mem_map]
    intro e he
    rw [Item.IsScoped, itemsScoped_iff]
    refine ⟨generatedModules_nodup_words ht distinct h he, fun i hi => ?_⟩
    -- Each item was made for a file, and is in order there.
    have hmem := hperm.subset ((sublist_placedItems he).subset (List.mem_map_of_mem hi))
    obtain ⟨p, hp, hmem⟩ := List.mem_flatMap.1 hmem
    obtain ⟨j, hj, heq⟩ := List.mem_map.1 hmem
    obtain rfl : j = i := (Prod.mk.inj heq).2
    exact itemsScoped_iff.1 (hmade p hp).apart j hj

end

end Protobuf
