import Protobuf.Proofs.Names.Numbers

/-! # Map entries in the table

The map entries of a schema are entered with their key and value fields.  If all names of a
schema are distinct, what the table finds under a name is the entry that was declared so.

* `DescriptorSet.declaredMapEntries`: the map entries that files and messages declare.
* `DescriptorSet.HasDistinctDeclarations`: no two messages, map entries or enums have one name.
* `NameTable.AddsEntries`: what was entered is what is declared.
* `NameTable.ofFiles_mapEntry`, `NameTable.ofFiles_no_mapEntry`: what the table finds.
-/

namespace Protobuf

def mapEntriesIn (scope : String) (messages : List MessageDescriptor) :
    List (String × MessageDescriptor) :=
  (messages.filter (·.isMapEntry)).filterMap fun m => m.name.map fun name => (scope ++ name, m)

theorem mapEntriesIn_append (scope : String) (messages messages' : List MessageDescriptor) :
    mapEntriesIn scope (messages ++ messages') =
      mapEntriesIn scope messages ++ mapEntriesIn scope messages' := by
  simp only [mapEntriesIn, List.filter_append, List.filterMap_append]

theorem mapEntriesIn_singleton {scope name : String} {m : MessageDescriptor} (hname : m.name = some name)
    (hentry : m.isMapEntry = true) : mapEntriesIn scope [m] = [(scope ++ name, m)] := by
  simp [mapEntriesIn, hname, hentry]

def mapEntriesInside (messages : List (String × MessageDescriptor)) :
    List (String × MessageDescriptor) :=
  messages.flatMap fun e => mapEntriesIn (e.1 ++ ".") e.2.nestedTypes

def FileDescriptor.declaredMapEntries (f : FileDescriptor) : List (String × MessageDescriptor) :=
  mapEntriesIn f.scope f.messageTypes ++ mapEntriesInside f.declaredMessages

def DescriptorSet.declaredMapEntries (s : DescriptorSet) : List (String × MessageDescriptor) :=
  s.files.flatMap (·.declaredMapEntries)

/-! ## Distinct names -/

mutual

/-- A message and all that are declared inside it, map entries included. -/
def MessageDescriptor.allMessages (scope : String) :
    MessageDescriptor → List (String × MessageDescriptor)
  | ⟨none, _, _, _, _, _⟩ => []
  | ⟨some name, fields, nestedTypes, enumTypes, options, oneofs⟩ =>
    (scope ++ name, ⟨some name, fields, nestedTypes, enumTypes, options, oneofs⟩) ::
      allMessagesIn (scope ++ name ++ ".") nestedTypes

def allMessagesIn (scope : String) : List MessageDescriptor → List (String × MessageDescriptor)
  | [] => []
  | m :: rest => m.allMessages scope ++ allMessagesIn scope rest

end

def FileDescriptor.allMessages (f : FileDescriptor) : List (String × MessageDescriptor) :=
  allMessagesIn f.scope f.messageTypes

def FileDescriptor.allEnums (f : FileDescriptor) : List (String × EnumDescriptor) :=
  enumsIn f.scope f.enumTypes ++ enumsInside f.allMessages

namespace DescriptorSet

def allMessages (s : DescriptorSet) : List (String × MessageDescriptor) :=
  s.files.flatMap (·.allMessages)

def allEnums (s : DescriptorSet) : List (String × EnumDescriptor) := s.files.flatMap (·.allEnums)

/-- No two messages or enums have the same fully-qualified name, map entries and what is
    declared inside them included. -/
def HasDistinctDeclarations (s : DescriptorSet) : Prop :=
  (s.allMessages.map (·.1) ++ s.allEnums.map (·.1)).Nodup

end DescriptorSet

theorem allMessagesIn_eq (scope : String) (messages : List MessageDescriptor) :
    allMessagesIn scope messages = messages.flatMap fun m => m.allMessages scope := by
  induction messages with
  | nil => rw [allMessagesIn, List.flatMap_nil]
  | cons m rest ih => rw [allMessagesIn, ih, List.flatMap_cons]

theorem MessageDescriptor.allMessages_eq {scope name : String} {m : MessageDescriptor}
    (h : m.name = some name) :
    m.allMessages scope =
      (scope ++ name, m) :: allMessagesIn (scope ++ name ++ ".") m.nestedTypes := by
  obtain ⟨_, _, _, _, _, _⟩ := m
  cases h
  rw [MessageDescriptor.allMessages]

mutual

theorem MessageDescriptor.messages_sublist (scope : String) :
    (m : MessageDescriptor) → (m.messages scope).Sublist (m.allMessages scope)
  | ⟨none, _, _, _, _, _⟩ => by
    rw [MessageDescriptor.messages]
    exact List.nil_sublist _
  | ⟨some name, _, nestedTypes, _, _, _⟩ => by
    rw [MessageDescriptor.messages, MessageDescriptor.allMessages]
    exact (nestedMessages_sublist (scope ++ name ++ ".") nestedTypes).cons_cons _

theorem nestedMessages_sublist (scope : String) :
    (ms : List MessageDescriptor) → (nestedMessages scope ms).Sublist (allMessagesIn scope ms)
  | [] => by
    rw [nestedMessages]
    exact List.nil_sublist _
  | m :: rest => by
    rw [nestedMessages, allMessagesIn]
    split
    · exact (nestedMessages_sublist scope rest).trans (List.sublist_append_right ..)
    · exact (m.messages_sublist scope).append (nestedMessages_sublist scope rest)

end

mutual

/-- What is declared inside a message anywhere in another is declared in that one. -/
theorem MessageDescriptor.allMessages_trans {e d : String × MessageDescriptor} {scope : String}
    (hd : d ∈ allMessagesIn (e.1 ++ ".") e.2.nestedTypes) :
    {m : MessageDescriptor} → e ∈ m.allMessages scope → d ∈ m.allMessages scope
  | ⟨none, _, _, _, _, _⟩, he => by
    rw [MessageDescriptor.allMessages] at he
    cases he
  | ⟨some name, _, nestedTypes, _, _, _⟩, he => by
    rw [MessageDescriptor.allMessages] at he ⊢
    rcases List.mem_cons.1 he with rfl | he
    · exact List.mem_cons_of_mem _ hd
    · exact List.mem_cons_of_mem _ (allMessagesIn_trans hd he)

theorem allMessagesIn_trans {e d : String × MessageDescriptor} {scope : String}
    (hd : d ∈ allMessagesIn (e.1 ++ ".") e.2.nestedTypes) :
    {ms : List MessageDescriptor} → e ∈ allMessagesIn scope ms → d ∈ allMessagesIn scope ms
  | [], he => by
    rw [allMessagesIn] at he
    cases he
  | m :: rest, he => by
    rw [allMessagesIn] at he ⊢
    rcases List.mem_append.1 he with he | he
    · exact List.mem_append_left _ (MessageDescriptor.allMessages_trans hd he)
    · exact List.mem_append_right _ (allMessagesIn_trans hd he)

end

mutual

/-- A message that is no map entry declares messages that are none. -/
theorem MessageDescriptor.isMapEntry_of_mem_messages {d : String × MessageDescriptor} {scope : String} :
    {m : MessageDescriptor} → m.isMapEntry = false → d ∈ m.messages scope → d.2.isMapEntry = false
  | ⟨none, _, _, _, _, _⟩, _, hd => by
    rw [MessageDescriptor.messages] at hd
    cases hd
  | ⟨some name, _, nestedTypes, _, _, _⟩, hentry, hd => by
    rw [MessageDescriptor.messages] at hd
    rcases List.mem_cons.1 hd with rfl | hd
    · exact hentry
    · exact isMapEntry_of_mem_nestedMessages hd

theorem isMapEntry_of_mem_nestedMessages {d : String × MessageDescriptor} {scope : String} :
    {ms : List MessageDescriptor} → d ∈ nestedMessages scope ms → d.2.isMapEntry = false
  | [], hd => by
    rw [nestedMessages] at hd
    cases hd
  | m :: rest, hd => by
    rw [nestedMessages] at hd
    split at hd
    · exact isMapEntry_of_mem_nestedMessages hd
    · rename_i hentry
      rcases List.mem_append.1 hd with hd | hd
      · exact MessageDescriptor.isMapEntry_of_mem_messages (by simpa using hentry) hd
      · exact isMapEntry_of_mem_nestedMessages hd

end

theorem mem_mapEntriesIn {scope : String} {ms : List MessageDescriptor}
    {d : String × MessageDescriptor} (h : d ∈ mapEntriesIn scope ms) :
    d ∈ allMessagesIn scope ms ∧ d.2.isMapEntry := by
  obtain ⟨m, hm, hd⟩ := List.mem_filterMap.1 h
  obtain ⟨name, hname, rfl⟩ := Option.map_eq_some_iff.1 hd
  obtain ⟨hm, hentry⟩ := List.mem_filter.1 hm
  refine ⟨?_, hentry⟩
  rw [allMessagesIn_eq, List.mem_flatMap]
  exact ⟨m, hm, by rw [MessageDescriptor.allMessages_eq hname]; exact List.mem_cons_self⟩

theorem FileDescriptor.mem_declaredMapEntries {f : FileDescriptor} {d : String × MessageDescriptor}
    (h : d ∈ f.declaredMapEntries) : d ∈ f.allMessages ∧ d.2.isMapEntry := by
  rcases List.mem_append.1 h with h | h
  · exact mem_mapEntriesIn h
  · obtain ⟨e, he, hd⟩ := List.mem_flatMap.1 h
    obtain ⟨hd, hentry⟩ := mem_mapEntriesIn hd
    exact ⟨allMessagesIn_trans hd ((nestedMessages_sublist _ _).subset he), hentry⟩

namespace DescriptorSet

variable {s : DescriptorSet} {typeName : String} {m : MessageDescriptor}

theorem mem_declaredMapEntries {d : String × MessageDescriptor} (h : d ∈ s.declaredMapEntries) :
    d ∈ s.allMessages ∧ d.2.isMapEntry := by
  obtain ⟨f, hf, hd⟩ := List.mem_flatMap.1 h
  obtain ⟨hd, hentry⟩ := FileDescriptor.mem_declaredMapEntries hd
  exact ⟨List.mem_flatMap.2 ⟨f, hf, hd⟩, hentry⟩

theorem mem_allMessages_of_declared {d : String × MessageDescriptor} (h : d ∈ s.declaredMessages) :
    d ∈ s.allMessages ∧ d.2.isMapEntry = false := by
  obtain ⟨f, hf, hd⟩ := List.mem_flatMap.1 h
  exact ⟨List.mem_flatMap.2 ⟨f, hf, (nestedMessages_sublist _ _).subset hd⟩,
    isMapEntry_of_mem_nestedMessages hd⟩

theorem HasDistinctDeclarations.types (h : s.HasDistinctDeclarations) : s.HasDistinctTypes := by
  have hmessages : ∀ f : FileDescriptor, f.declaredMessages.Sublist f.allMessages :=
    fun f => nestedMessages_sublist _ _
  refine h.sublist (.append (.map _ ?_) (.map _ ?_))
  · exact List.Sublist.flatMap_right _ fun f _ => hmessages f
  · exact List.Sublist.flatMap_right _ fun f _ =>
      (List.Sublist.refl _).append ((hmessages f).flatMap _)

/-- There is one message of a name. -/
theorem HasDistinctDeclarations.unique (h : s.HasDistinctDeclarations) {d d' : String × MessageDescriptor}
    (hd : d ∈ s.allMessages) (hd' : d' ∈ s.allMessages) (heq : d.1 = d'.1) : d = d' :=
  List.inj_on_of_nodup_map (List.nodup_append'.1 h).1 hd hd' heq

/-- A map entry is found under its name. -/
theorem HasDistinctDeclarations.entryOf?_mapEntry (h : s.HasDistinctDeclarations)
    (hd : (typeName, m) ∈ s.declaredMapEntries) :
    entryOf? typeName s.declaredMapEntries = some m := by
  have hsome := isSome_entryOf?_iff.2 (List.mem_map_of_mem (f := (·.1)) hd)
  obtain ⟨m', hm'⟩ := Option.isSome_iff_exists.1 hsome
  have heq := h.unique (mem_declaredMapEntries hd).1
    (mem_declaredMapEntries (mem_of_entryOf? hm')).1 rfl
  rw [hm', (Prod.mk.inj heq).2]

/-- A map entry has the name of no other message. -/
theorem HasDistinctDeclarations.not_mem_messages (h : s.HasDistinctDeclarations)
    (hd : (typeName, m) ∈ s.declaredMapEntries) : typeName ∉ s.declaredMessages.map (·.1) := by
  intro hmem
  obtain ⟨e, he, rfl⟩ := List.mem_map.1 hmem
  obtain ⟨hall, hentry⟩ := mem_declaredMapEntries hd
  obtain ⟨hall', hmessage⟩ := mem_allMessages_of_declared he
  have heq := h.unique hall hall' rfl
  rw [← heq, hentry] at hmessage
  cases hmessage

end DescriptorSet

/-! ## Entered map entries -/

/-- The key and the value field of a map entry. -/
structure MapEntry.Describes (entry : MapEntry) (m : MessageDescriptor) : Prop where
  key : m.fields.find? (·.number = some 1) = some entry.key
  value : m.fields.find? (·.number = some 2) = some entry.value

namespace NameTable

/-- Between two states of the table some map entries were entered, each with its fields. -/
structure AddsEntries (t t' : NameTable) (declared : List (String × MessageDescriptor)) : Prop where
  sound : ∀ e ∈ t'.mapEntries, e ∈ t.mapEntries ∨ ∃ m, (e.1, m) ∈ declared ∧ e.2.Describes m
  complete : ∀ d ∈ declared, d.1 ∈ t'.mapEntries.map (·.1)
  keeps : t.mapEntries ⊆ t'.mapEntries

variable {ctx : FileContext} {scope : String} {module : List Ident} {t t₁ t' : NameTable}
  {declared declared' : List (String × MessageDescriptor)}

theorem AddsEntries.of_eq (h : t'.mapEntries = t.mapEntries) : AddsEntries t t' [] where
  sound e he := .inl (h ▸ he)
  complete := by simp
  keeps := by rw [h]; exact List.Subset.refl _

theorem AddsEntries.trans (h : AddsEntries t t₁ declared) (h' : AddsEntries t₁ t' declared') :
    AddsEntries t t' (declared ++ declared') where
  sound e he := by
    rcases h'.sound e he with he | ⟨m, hm, hdescribes⟩
    · exact (h.sound e he).imp_right fun ⟨m, hm, hdescribes⟩ =>
        ⟨m, List.mem_append_left _ hm, hdescribes⟩
    · exact .inr ⟨m, List.mem_append_right _ hm, hdescribes⟩
  complete d hd := by
    rcases List.mem_append.1 hd with hd | hd
    · exact List.map_subset _ h'.keeps (h.complete d hd)
    · exact h'.complete d hd
  keeps := List.Subset.trans h.keeps h'.keeps

theorem addMapEntries_adds {ms : List MessageDescriptor}
    (h : addMapEntries scope ms t = .ok t') : AddsEntries t t' (mapEntriesIn scope ms) := by
  refine foldlM_ok (P := fun done t' => AddsEntries t t'
    (done.filterMap fun m => m.name.map fun name => (scope ++ name, m))) h (.of_eq rfl) ?_
  intro done m t₁ t' hdone hstep
  obtain ⟨name, hname, hstep⟩ := bind_eq_ok.1 hstep
  rw [List.filterMap_append, List.filterMap_cons_some (b := (scope ++ name, m))
    (by rw [required_eq_ok hname]; rfl), List.filterMap_nil]
  refine hdone.trans ?_
  simp only at hstep
  split at hstep
  · rename_i key value hkey hvalue
    split at hstep
    · cases hstep
      refine ⟨fun e he => ?_, ?_, List.subset_cons_self ..⟩
      · rcases List.mem_cons.1 he with rfl | he
        · exact .inr ⟨m, List.mem_singleton_self _, hkey, hvalue⟩
        · exact .inl he
      · simp
    · cases hstep
  · cases hstep

theorem addEnums_mapEntries {enums : List (EnumDescriptor × Ident)}
    (h : addEnums ctx scope module enums t = .ok t') : t'.mapEntries = t.mapEntries := by
  refine foldlM_ok (P := fun _ t' => t'.mapEntries = t.mapEntries) h rfl ?_
  intro _ e t₁ t' hdone hstep
  obtain ⟨name, -, hstep⟩ := bind_eq_ok.1 hstep
  obtain ⟨names, -, hstep⟩ := bind_eq_ok.1 hstep
  cases hstep
  exact hdone

theorem ModuleEntered.adds_of {ms : List MessageDescriptor} {es : List EnumDescriptor} {s s' : Scope}
    {claimed : ModuleIdents} (h : ModuleEntered ctx scope module ms es s s' claimed t t')
    (body : ∀ {t₂}, addMessages ctx ms claimed.messages scope module t₂ = .ok t' →
      AddsEntries t₂ t' declared) : AddsEntries t t' (mapEntriesIn scope ms ++ declared) := by
  obtain ⟨-, -, -, -, -, hentries, henums, hmessages⟩ := h
  have hown := (addMapEntries_adds hentries).trans (.of_eq (addEnums_mapEntries henums))
  rw [List.append_nil] at hown
  exact hown.trans (body hmessages)

/-- Messages that have identifiers are entered with the map entries inside them. -/
theorem addMessages_adds {ms : List MessageDescriptor} {idents : List MessageIdents}
    {scope : String} {module : List Ident} {t t' : NameTable}
    (h : addMessages ctx ms idents scope module t = .ok t')
    (hlength : idents.length = (ms.filter (!·.isMapEntry)).length) :
    AddsEntries t t' (mapEntriesInside (nestedMessages scope ms)) := by
  match ms with
  | [] =>
    rw [addMessages_nil] at h
    cases h
    rw [nestedMessages]
    exact .of_eq rfl
  | ⟨name, fields, nestedTypes, enumTypes, options, oneofs⟩ :: rest =>
    rw [nestedMessages]
    by_cases hentry : (MessageDescriptor.mk name fields nestedTypes enumTypes options oneofs).isMapEntry
    · rw [addMessages_cons, if_pos hentry] at h
      rw [List.filter_cons_of_neg (by simpa using hentry)] at hlength
      rw [if_pos hentry]
      exact addMessages_adds h hlength
    · rw [List.filter_cons_of_pos (by simpa using hentry)] at hlength
      rw [if_neg hentry]
      obtain ⟨i, idents, rfl⟩ := List.exists_cons_of_length_eq_add_one hlength
      obtain ⟨word, claimed, inner, t₁, named, hname, inside, -, hrest⟩ :=
        addMessages_cons_ok hentry h
      have own := inside.adds_of fun hmessages => addMessages_adds hmessages inside.length_claimed.1
      have noted : AddsEntries t { t₁ with messages := (scope ++ word, named) :: t₁.messages } _ :=
        ⟨own.sound, own.complete, own.keeps⟩
      rw [MessageDescriptor.messages_eq hname, mapEntriesInside, List.flatMap_append,
        List.flatMap_cons]
      exact noted.trans (addMessages_adds hrest (by simpa using hlength))

variable {settings : Settings} {files : List FileDescriptor} {scopes : List (Ident × Scope)}

theorem addFiles_adds (h : addFiles settings files scopes t = .ok t') :
    AddsEntries t t' (files.flatMap (·.declaredMapEntries)) := by
  induction files generalizing scopes t with
  | nil =>
    cases h
    exact .of_eq rfl
  | cons f files ih =>
    obtain ⟨⟨t₁, scope⟩, hfile, hrest⟩ := bind_eq_ok.1 h
    obtain ⟨claimed, inside⟩ := addFile_ok hfile
    have hadded := inside.adds_of fun hmessages => addMessages_adds hmessages inside.length_claimed.1
    exact hadded.trans (ih hrest)

variable {s : DescriptorSet} {typeName : String} {entry : MapEntry}

theorem ofFiles_adds (h : ofFiles settings s = .ok t) : AddsEntries {} t s.declaredMapEntries := by
  obtain ⟨t, hfiles, rfl⟩ := ofFiles_ok h
  have hadded := addFiles_adds hfiles
  exact ⟨hadded.sound, hadded.complete, hadded.keeps⟩

/-- A map entry that the table finds is the one that was declared under the name. -/
theorem ofFiles_mapEntry (h : ofFiles settings s = .ok t) (distinct : s.HasDistinctDeclarations)
    (hentry : entryOf? typeName t.mapEntries = some entry) :
    ∃ m, entryOf? typeName s.declaredMapEntries = some m ∧ entry.Describes m := by
  rcases (ofFiles_adds h).sound _ (mem_of_entryOf? hentry) with hmem | ⟨m, hm, hdescribes⟩
  · cases hmem
  · exact ⟨m, distinct.entryOf?_mapEntry hm, hdescribes⟩

/-- A name under which the table finds no map entry was declared for none. -/
theorem ofFiles_no_mapEntry (h : ofFiles settings s = .ok t)
    (hnone : entryOf? typeName t.mapEntries = none) :
    entryOf? typeName s.declaredMapEntries = none := by
  rw [entryOf?_eq_none_iff] at hnone ⊢
  intro hmem
  obtain ⟨d, hd, rfl⟩ := List.mem_map.1 hmem
  exact hnone ((ofFiles_adds h).complete d hd)

end NameTable

end Protobuf
