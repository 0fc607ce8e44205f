import Protobuf.Proofs.Names.Boxing
import Protobuf.Proofs.Names.Members

/-! # What is entered in the table

The messages and enums of a module are entered one after another, each message with what is
declared inside it.

* `NameTable.Entered`: the steps in which a module is entered.
* `NameTable.ModuleEntered`, `NameTable.addMessages_cons_ok`: what the functions that enter do.
* `NameTable.Entered.of_addMessages`, `of_addEnums`, `of_addMapEntries`: it is entered so.
* `NameTable.Entered.count_messages`, `count_enums`: there is one entry for each declaration.
* `NameTable.Entered.settled`, `enums_distinct`: the entries tell apart what is declared.
-/

namespace Protobuf

def enumsIn (scope : String) (enums : List EnumDescriptor) : List (String × EnumDescriptor) :=
  enums.filterMap fun e => e.name.map fun name => (scope ++ name, e)

def enumsInside (messages : List (String × MessageDescriptor)) : List (String × EnumDescriptor) :=
  messages.flatMap fun e => enumsIn (e.1 ++ ".") e.2.enumTypes

theorem enumsIn_cons {scope name : String} {e : EnumDescriptor} (h : e.name = some name)
    (enums : List EnumDescriptor) :
    enumsIn scope (e :: enums) = (scope ++ name, e) :: enumsIn scope enums := by
  simp [enumsIn, h]

theorem MessageDescriptor.messages_eq {scope name : String} {m : MessageDescriptor}
    (h : m.name = some name) :
    m.messages scope =
      (scope ++ name, m) :: nestedMessages (scope ++ name ++ ".") m.nestedTypes := by
  obtain ⟨_, _, _, _, _, _⟩ := m
  cases h
  rw [MessageDescriptor.messages]

theorem nestedMessages_eq (scope : String) (messages : List MessageDescriptor) :
    nestedMessages scope messages =
      (messages.filter (!·.isMapEntry)).flatMap fun m => m.messages scope := by
  induction messages with
  | nil => rw [nestedMessages, List.filter_nil, List.flatMap_nil]
  | cons m rest ih => cases hentry : m.isMapEntry <;> simp [nestedMessages, hentry, ih]

namespace NameTable

def wordsOf (messages : List (MessageDescriptor × MessageIdents))
    (enums : List (EnumDescriptor × Ident)) : List String :=
  enums.map (·.2.word) ++ messages.flatMap (·.2.words)

/-! ## Steps -/

/-- What is declared in a module is entered: map entries, enums and, with what is declared
    inside them, messages. -/
inductive Entered (ctx : FileContext) : (scope : String) → (module : List Ident) →
    (messages : List (MessageDescriptor × MessageIdents)) →
    (enums : List (EnumDescriptor × Ident)) → NameTable → NameTable → Prop
  | done {scope module t} : Entered ctx scope module [] [] t t
  | mapEntry {scope module messages enums t t'} (name : String) (entry : MapEntry)
      (rest : Entered ctx scope module messages enums
        { t with
          types := (name, ⟨.mapEntry, .suppressed⟩) :: t.types
          mapEntries := (name, entry) :: t.mapEntries } t') :
      Entered ctx scope module messages enums t t'
  | enum {scope module messages enums t t' name ident} {e : EnumDescriptor} {names : EnumNames}
      (hname : e.name = some name) (hnames : enumNames ident e = .ok names)
      (rest : Entered ctx scope module messages enums
        { t with
          types := (scope ++ name, ⟨.enumeration, ctx.pathOf (scope ++ name) module ident⟩) :: t.types
          enums := (scope ++ name, names) :: t.enums } t') :
      Entered ctx scope module messages ((e, ident) :: enums) t t'
  | message {scope module messages enums nested inner claimed t t₁ t' name i}
      {m : MessageDescriptor} {names : MessageNames}
      (hname : m.name = some name)
      (hnested : nested.map (·.1) = m.nestedTypes.filter (!·.isMapEntry))
      (hinner : inner.map (·.1) = m.enumTypes)
      (hclaimed : Scope.Grants {} claimed (wordsOf nested inner))
      (body : Entered ctx (scope ++ name ++ ".") (module ++ [i.module]) nested inner
        { t with
          types := (scope ++ name, ⟨.message, ctx.pathOf (scope ++ name) module i.ident⟩) :: t.types }
        t₁)
      (hnames : messageNames m i claimed = .ok names)
      (rest : Entered ctx scope module messages enums
        { t₁ with messages := (scope ++ name, names) :: t₁.messages } t') :
      Entered ctx scope module ((m, i) :: messages) enums t t'

variable {ctx : FileContext} {scope : String} {module : List Ident} {t t₁ t' : NameTable}
  {messages : List (MessageDescriptor × MessageIdents)} {enums : List (EnumDescriptor × Ident)}

theorem required_eq_ok {name : Option String} {n : String} (h : required name = .ok n) :
    name = some n := by
  cases name with
  | none => cases h
  | some _ =>
    cases h
    rfl

theorem Entered.of_addEnums (h : addEnums ctx scope module enums t = .ok t₁)
    (rest : Entered ctx scope module messages [] t₁ t') :
    Entered ctx scope module messages enums t t' := by
  unfold addEnums at h
  induction enums generalizing t with
  | nil =>
    cases h
    exact rest
  | cons e enums ih =>
    obtain ⟨t₂, hone, hrest⟩ := bind_eq_ok.1 (List.foldlM_cons (m := Except GenerateError) ▸ h)
    obtain ⟨name, hname, hone⟩ := bind_eq_ok.1 hone
    obtain ⟨names, hnames, hone⟩ := bind_eq_ok.1 hone
    cases hone
    exact .enum (required_eq_ok hname) hnames (ih hrest)

theorem Entered.of_addMapEntries {ms : List MessageDescriptor}
    (h : addMapEntries scope ms t = .ok t₁)
    (rest : Entered ctx scope module messages enums t₁ t') :
    Entered ctx scope module messages enums t t' := by
  unfold addMapEntries at h
  generalize ms.filter (·.isMapEntry) = entries at h
  induction entries generalizing t with
  | nil =>
    cases h
    exact rest
  | cons m entries ih =>
    obtain ⟨t₂, hone, hrest⟩ := bind_eq_ok.1 (List.foldlM_cons (m := Except GenerateError) ▸ h)
    obtain ⟨name, -, hone⟩ := bind_eq_ok.1 hone
    simp only at hone
    split at hone
    · split at hone
      · cases hone
        exact .mapEntry _ _ (ih hrest)
      · cases hone
    · cases hone

theorem wordsOf_zip {ms : List MessageDescriptor} {es : List EnumDescriptor} {idents : ModuleIdents}
    (hmessages : idents.messages.length = ms.length) (henums : idents.enums.length = es.length) :
    wordsOf (ms.zip idents.messages) (es.zip idents.enums) = idents.words := by
  have hm : (ms.zip idents.messages).flatMap (·.2.words) =
      ((ms.zip idents.messages).map (·.2)).flatMap MessageIdents.words := (List.flatMap_map ..).symm
  have he : (es.zip idents.enums).map (·.2.word) =
      ((es.zip idents.enums).map (·.2)).map (·.word) := List.map_map.symm
  rw [wordsOf, ModuleIdents.words, hm, he, List.map_snd_zip hmessages.le, List.map_snd_zip henums.le]

/-- What is declared in a module is entered.  The module claims identifiers for its messages and
    enums in a scope, and then come its map entries, its enums and its messages. -/
inductive ModuleEntered (ctx : FileContext) (scope : String) (module : List Ident)
    (ms : List MessageDescriptor) (es : List EnumDescriptor) (s s' : Scope)
    (claimed : ModuleIdents) (t t' : NameTable) : Prop
  | intro (names enumNames : List String) {t₁ t₂ : NameTable}
      (hnames : (ms.filter (!·.isMapEntry)).mapM (required ·.name) = .ok names)
      (henumNames : es.mapM (required ·.name) = .ok enumNames)
      (hclaim : claimModule names enumNames s = (claimed, s'))
      (hentries : addMapEntries scope ms t = .ok t₁)
      (henums : addEnums ctx scope module (es.zip claimed.enums) t₁ = .ok t₂)
      (hmessages : addMessages ctx ms claimed.messages scope module t₂ = .ok t')

namespace ModuleEntered

variable {ms : List MessageDescriptor} {es : List EnumDescriptor} {s s' : Scope}
  {claimed : ModuleIdents}

/-- There is an identifier for each declaration. -/
theorem length_claimed (h : ModuleEntered ctx scope module ms es s s' claimed t t') :
    claimed.messages.length = (ms.filter (!·.isMapEntry)).length ∧
      claimed.enums.length = es.length := by
  obtain ⟨names, enumNames, hnames, henumNames, hclaim, -, -, -⟩ := h
  have hlength := length_claimModule names enumNames s
  rw [hclaim, ← (mapM_eq_ok_iff.1 hnames).length_eq,
    ← (mapM_eq_ok_iff.1 henumNames).length_eq] at hlength
  exact hlength

theorem grants (h : ModuleEntered ctx scope module ms es s s' claimed t t') :
    s.Grants s' (wordsOf ((ms.filter (!·.isMapEntry)).zip claimed.messages)
      (es.zip claimed.enums)) := by
  rw [wordsOf_zip h.length_claimed.1 h.length_claimed.2]
  obtain ⟨names, enumNames, -, -, hclaim, -, -, -⟩ := h
  have hgrants := grants_claimModule names enumNames s
  rw [hclaim] at hgrants
  exact hgrants

end ModuleEntered

theorem addMessages_nil (ctx : FileContext) (idents : List MessageIdents) (scope : String)
    (module : List Ident) (t : NameTable) : addMessages ctx [] idents scope module t = .ok t := by
  exact addMessages.eq_def ..

theorem addMessages_cons (ctx : FileContext) (m : MessageDescriptor) (rest : List MessageDescriptor)
    (idents : List MessageIdents) (scope : String) (module : List Ident) (t : NameTable) :
    addMessages ctx (m :: rest) idents scope module t =
      if m.isMapEntry then addMessages ctx rest idents scope module t
      else
        match idents with
        | [] => .ok t
        | i :: idents => (do
          let typeName := scope ++ (← required m.name)
          let inner := typeName ++ "."
          let innerModule := module ++ [i.module]
          let names ← (m.nestedTypes.filter (!·.isMapEntry)).mapM (required ·.name)
          let enumNames ← m.enumTypes.mapM (required ·.name)
          let (claimed, innerScope) := claimModule names enumNames {}
          let t ← addMapEntries inner m.nestedTypes { t with
            types := (typeName, ⟨.message, ctx.pathOf typeName module i.ident⟩) :: t.types }
          let t ← addEnums ctx inner innerModule (m.enumTypes.zip claimed.enums) t
          let t ← addMessages ctx m.nestedTypes claimed.messages inner innerModule t
          let named ← messageNames m i innerScope
          addMessages ctx rest idents scope module
            { t with messages := (typeName, named) :: t.messages }) := by
  obtain ⟨_, _, _, _, _, _⟩ := m
  exact addMessages.eq_def ..

/-- A message is entered with its own type first, then what is declared inside it, and its names
    last.  The messages behind it come after that. -/
theorem addMessages_cons_ok {m : MessageDescriptor} {rest : List MessageDescriptor}
    {i : MessageIdents} {idents : List MessageIdents} (hentry : ¬m.isMapEntry)
    (h : addMessages ctx (m :: rest) (i :: idents) scope module t = .ok t') :
    ∃ word claimed innerScope t₁ named, m.name = some word ∧
      ModuleEntered ctx (scope ++ word ++ ".") (module ++ [i.module]) m.nestedTypes m.enumTypes {}
        innerScope claimed
        { t with
          types := (scope ++ word, ⟨.message, ctx.pathOf (scope ++ word) module i.ident⟩) :: t.types }
        t₁ ∧
      messageNames m i innerScope = .ok named ∧
      addMessages ctx rest idents scope module
        { t₁ with messages := (scope ++ word, named) :: t₁.messages } = .ok t' := by
  rw [addMessages_cons, if_neg hentry] at h
  obtain ⟨word, hname, h⟩ := bind_eq_ok.1 h
  obtain ⟨names, hnames, h⟩ := bind_eq_ok.1 h
  obtain ⟨enumNames, henumNames, h⟩ := bind_eq_ok.1 h
  rcases hclaim : claimModule names enumNames {} with ⟨claimed, inner⟩
  simp only [hclaim] at h
  obtain ⟨t₁, hentries, h⟩ := bind_eq_ok.1 h
  obtain ⟨t₂, henums, h⟩ := bind_eq_ok.1 h
  obtain ⟨t₃, hmessages, h⟩ := bind_eq_ok.1 h
  obtain ⟨named, hnamed, hrest⟩ := bind_eq_ok.1 h
  exact ⟨word, claimed, inner, t₃, named, required_eq_ok hname,
    .intro names enumNames hnames henumNames hclaim hentries henums hmessages, hnamed, hrest⟩

theorem ModuleEntered.entered_of {ms : List MessageDescriptor} {es : List EnumDescriptor}
    {s s' : Scope} {claimed : ModuleIdents}
    (h : ModuleEntered ctx scope module ms es s s' claimed t t')
    (body : ∀ {t₂}, addMessages ctx ms claimed.messages scope module t₂ = .ok t' →
      Entered ctx scope module messages [] t₂ t') :
    Entered ctx scope module messages (es.zip claimed.enums) t t' := by
  obtain ⟨-, -, -, -, -, hentries, henums, hmessages⟩ := h
  exact .of_addMapEntries hentries (.of_addEnums henums (body hmessages))

/-- Messages that have identifiers are entered. -/
theorem Entered.of_addMessages {ms : List MessageDescriptor} {idents : List MessageIdents}
    {scope : String} {module : List Ident} {t t' : NameTable}
    (h : addMessages ctx ms idents scope module t = .ok t')
    (hlength : idents.length = (ms.filter (!·.isMapEntry)).length) :
    Entered ctx scope module ((ms.filter (!·.isMapEntry)).zip idents) [] t t' := by
  match ms with
  | [] =>
    rw [addMessages_nil] at h
    cases h
    exact .done
  | ⟨name, fields, nestedTypes, enumTypes, options, oneofs⟩ :: rest =>
    by_cases hentry : (MessageDescriptor.mk name fields nestedTypes enumTypes options oneofs).isMapEntry
    · rw [addMessages_cons, if_pos hentry] at h
      rw [List.filter_cons_of_neg (by simpa using hentry)] at hlength ⊢
      exact of_addMessages h hlength
    · rw [List.filter_cons_of_pos (by simpa using hentry)] at hlength ⊢
      obtain ⟨i, idents, rfl⟩ := List.exists_cons_of_length_eq_add_one hlength
      obtain ⟨word, claimed, inner, t₁, named, hname, inside, hnamed, hrest⟩ :=
        addMessages_cons_ok hentry h
      obtain ⟨hmessagesLength, henumsLength⟩ := inside.length_claimed
      exact .message hname (List.map_fst_zip hmessagesLength.ge) (List.map_fst_zip henumsLength.ge)
        inside.grants (inside.entered_of fun hmessages => of_addMessages hmessages hmessagesLength)
        hnamed (of_addMessages hrest (by simpa using hlength))

theorem ModuleEntered.entered {ms : List MessageDescriptor} {es : List EnumDescriptor}
    {s s' : Scope} {claimed : ModuleIdents}
    (h : ModuleEntered ctx scope module ms es s s' claimed t t') :
    Entered ctx scope module ((ms.filter (!·.isMapEntry)).zip claimed.messages)
      (es.zip claimed.enums) t t' :=
  h.entered_of fun hmessages => .of_addMessages hmessages h.length_claimed.1

/-! ## One entry each -/

def declaredIn (scope : String) (messages : List (MessageDescriptor × MessageIdents)) :
    List (String × MessageDescriptor) :=
  messages.flatMap fun p => p.1.messages scope

theorem declaredIn_eq {ms : List MessageDescriptor}
    (h : messages.map (·.1) = ms.filter (!·.isMapEntry)) :
    declaredIn scope messages = nestedMessages scope ms := by
  rw [nestedMessages_eq, ← h, List.flatMap_map]
  rfl

theorem declaredIn_cons {name : String} {m : MessageDescriptor} (hname : m.name = some name)
    (i : MessageIdents) (messages : List (MessageDescriptor × MessageIdents)) :
    declaredIn scope ((m, i) :: messages) =
      (scope ++ name, m) :: nestedMessages (scope ++ name ++ ".") m.nestedTypes ++
        declaredIn scope messages := by
  rw [declaredIn, List.flatMap_cons, MessageDescriptor.messages_eq hname]
  rfl

/-- Each message is entered once. -/
theorem Entered.count_messages (h : Entered ctx scope module messages enums t t')
    (typeName : String) :
    (t'.messages.map (·.1)).count typeName =
      ((declaredIn scope messages).map (·.1)).count typeName +
        (t.messages.map (·.1)).count typeName := by
  induction h with
  | done => simp [declaredIn]
  | mapEntry _ _ _ ih => exact ih
  | enum _ _ _ ih => exact ih
  | message hname hnested _ _ _ _ _ ihBody ihRest =>
    rw [declaredIn_eq hnested] at ihBody
    rw [ihRest, declaredIn_cons hname]
    simp only [List.map_cons, List.map_append, List.count_cons, List.count_append, List.cons_append,
      ihBody]
    omega

/-- Each enum is entered once. -/
theorem Entered.count_enums (h : Entered ctx scope module messages enums t t') (typeName : String) :
    (t'.enums.map (·.1)).count typeName =
      ((enumsIn scope (enums.map (·.1)) ++ enumsInside (declaredIn scope messages)).map
        (·.1)).count typeName + (t.enums.map (·.1)).count typeName := by
  induction h with
  | done => simp [declaredIn, enumsIn, enumsInside]
  | mapEntry _ _ _ ih => exact ih
  | enum hname _ _ ih =>
    rw [ih]
    simp only [enumsIn_cons hname, List.map_cons, List.map_append, List.count_cons,
      List.count_append, List.cons_append]
    omega
  | message hname hnested hinner _ _ _ _ ihBody ihRest =>
    rw [declaredIn_eq hnested, hinner] at ihBody
    rw [ihRest, declaredIn_cons hname]
    simp only [enumsInside, List.flatMap_cons, List.flatMap_append, List.map_append,
      List.count_append, List.cons_append, ihBody]
    omega

/-! ## What the entries say -/

structure Grows (t t' : NameTable) : Prop where
  messages : t.messages ⊆ t'.messages
  enums : t.enums ⊆ t'.enums

theorem Grows.refl (t : NameTable) : t.Grows t := ⟨List.Subset.refl _, List.Subset.refl _⟩

theorem Grows.trans {t t' t'' : NameTable} (h : t.Grows t') (h' : t'.Grows t'') : t.Grows t'' :=
  ⟨List.Subset.trans h.messages h'.messages, List.Subset.trans h.enums h'.enums⟩

theorem Entered.grows (h : Entered ctx scope module messages enums t t') : t.Grows t' := by
  induction h with
  | done => exact .refl _
  | mapEntry _ _ _ ih => exact ⟨ih.messages, ih.enums⟩
  | enum _ _ _ ih => exact ⟨ih.messages, List.subset_of_cons_subset ih.enums⟩
  | message _ _ _ _ _ _ _ ihBody ihRest =>
    exact ⟨List.Subset.trans ihBody.messages (List.subset_of_cons_subset ihRest.messages),
      List.Subset.trans ihBody.enums ihRest.enums⟩

/-- The messages and enums of a module have entries with the identifiers that they claimed. -/
structure Declares (t : NameTable) (scope : String)
    (messages : List (MessageDescriptor × MessageIdents)) (enums : List (EnumDescriptor × Ident)) :
    Prop where
  messages : ∀ p ∈ messages, ∃ name names, p.1.name = some name ∧
    (scope ++ name, names) ∈ t.messages ∧ names.idents = p.2
  enums : ∀ p ∈ enums, ∃ name names, p.1.name = some name ∧
    (scope ++ name, names) ∈ t.enums ∧ names.ident = p.2

theorem Declares.grow (h : t.Declares scope messages enums) (grows : t.Grows t') :
    t'.Declares scope messages enums where
  messages p hp := by
    obtain ⟨name, names, hname, hmem, hidents⟩ := h.messages p hp
    exact ⟨name, names, hname, grows.messages hmem, hidents⟩
  enums p hp := by
    obtain ⟨name, names, hname, hmem, hident⟩ := h.enums p hp
    exact ⟨name, names, hname, grows.enums hmem, hident⟩

theorem Entered.declares (h : Entered ctx scope module messages enums t t') :
    t'.Declares scope messages enums := by
  induction h with
  | done => exact ⟨by simp, by simp⟩
  | mapEntry _ _ _ ih => exact ih
  | enum hname hnames rest ih =>
    refine ⟨ih.messages, ?_⟩
    rw [List.forall_mem_cons]
    exact ⟨⟨_, _, hname, rest.grows.enums List.mem_cons_self, (enumNames_ok hnames).1⟩, ih.enums⟩
  | message hname _ _ _ _ hnames rest _ ih =>
    refine ⟨?_, ih.enums⟩
    rw [List.forall_mem_cons]
    exact ⟨⟨_, _, hname, rest.grows.messages List.mem_cons_self, (messageNames_ok hnames).1⟩,
      ih.messages⟩

/-- A message has an entry, and its module declares nothing twice. -/
structure Settled (t : NameTable) (typeName : String) (m : MessageDescriptor)
    (names : MessageNames) (nested : List (MessageDescriptor × MessageIdents))
    (inner : List (EnumDescriptor × Ident)) : Prop where
  entry : (typeName, names) ∈ t.messages
  distinct : names.Distinct m
  messages : nested.map (·.1) = m.nestedTypes.filter (!·.isMapEntry)
  enums : inner.map (·.1) = m.enumTypes
  declares : t.Declares (typeName ++ ".") nested inner
  words : (wordsOf nested inner ++ names.oneofs.map (·.2.ident.word)).Nodup

theorem Settled.grow {typeName : String} {m : MessageDescriptor} {names : MessageNames}
    {nested : List (MessageDescriptor × MessageIdents)} {inner : List (EnumDescriptor × Ident)}
    (h : t.Settled typeName m names nested inner) (grows : t.Grows t') :
    t'.Settled typeName m names nested inner :=
  { h with
    entry := grows.messages h.entry
    declares := h.declares.grow grows }

theorem Entered.settled (h : Entered ctx scope module messages enums t t') :
    ∀ e ∈ declaredIn scope messages, ∃ names nested inner,
      t'.Settled e.1 e.2 names nested inner := by
  induction h with
  | done => simp [declaredIn]
  | mapEntry _ _ _ ih => exact ih
  | enum _ _ _ ih => exact ih
  | message hname hnested hinner hclaimed body hnames rest ihBody ihRest =>
    rw [declaredIn_eq hnested] at ihBody
    have grows : Grows _ _ := ⟨List.subset_of_cons_subset rest.grows.messages, rest.grows.enums⟩
    intro e he
    rw [declaredIn_cons hname, List.cons_append, List.mem_cons, List.mem_append] at he
    rcases he with rfl | he | he
    · -- The oneofs claim their identifiers when everything else in the module has its own.
      obtain ⟨-, hdistinct, s, honeofs⟩ := messageNames_ok hnames
      exact ⟨_, _, _, rest.grows.messages List.mem_cons_self, hdistinct, hnested, hinner,
        body.declares.grow grows, (hclaimed.append honeofs).nodup⟩
    · obtain ⟨names, nested, inner, hsettled⟩ := ihBody e he
      exact ⟨names, nested, inner, hsettled.grow grows⟩
    · exact ihRest e he

theorem Entered.enums_distinct (h : Entered ctx scope module messages enums t t') :
    ∀ d ∈ enumsIn scope (enums.map (·.1)) ++ enumsInside (declaredIn scope messages),
      ∃ names, (d.1, names) ∈ t'.enums ∧ names.Distinct d.2 := by
  induction h with
  | done => simp [declaredIn, enumsIn, enumsInside]
  | mapEntry _ _ _ ih => exact ih
  | enum hname hnames rest ih =>
    rw [List.map_cons, enumsIn_cons hname, List.cons_append, List.forall_mem_cons]
    exact ⟨⟨_, rest.grows.enums List.mem_cons_self, (enumNames_ok hnames).2⟩, ih⟩
  | message hname hnested hinner _ _ _ rest ihBody ihRest =>
    rw [declaredIn_eq hnested, hinner] at ihBody
    intro d hd
    rw [declaredIn_cons hname, enumsInside, List.cons_append, List.flatMap_cons,
      List.flatMap_append] at hd
    simp only [List.mem_append] at hd ihBody ihRest
    rcases hd with hd | hd | hd | hd
    · exact ihRest d (.inl hd)
    · exact (ihBody d (.inl hd)).imp fun _ h => ⟨rest.grows.enums h.1, h.2⟩
    · exact (ihBody d (.inr hd)).imp fun _ h => ⟨rest.grows.enums h.1, h.2⟩
    · exact ihRest d (.inr hd)

end NameTable

end Protobuf
