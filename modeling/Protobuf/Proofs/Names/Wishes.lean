import Protobuf.Proofs.Names.Declarations

/-! # What becomes of a wish

An identifier that was claimed is the one that was asked for or, if that one was taken, the first
one with underscores behind it that was not.

* `Ident.Yields`: an identifier and those that a scope may grant for it.
* `Ident.Yields.eq_or_weight`: a longer identifier has another text.
* `Ident.Becomes`: what is granted for a wish, which is the wish unless something else has it.
* `NameTable.ModuleEntered.message_of_mem`, `enum_of_mem`: what the declarations of a module become.
* `NameTable.exists_moduleEntered`: each file of a schema was entered as a module.
-/

namespace Protobuf

namespace Ident

theorem text_ofText (text : String) : (ofText text).text = text := by
  unfold ofText
  split
  · rename_i word h
    rw [Ident.text, if_pos rfl, ← String.toList_inj, h]
    simp
  · rfl

/-- What a scope makes of an identifier: nothing else, or the same with underscores behind its
    word, one at a time.  Each longer word is read anew. -/
inductive Yields : Ident → Ident → Prop
  | refl (i : Ident) : Yields i i
  | longer {i j : Ident} (further : Yields (ofText (i.word ++ "_")) j) : Yields i j

def marks (text : String) : Nat := text.toList.count '#'

theorem marks_longer (i : Ident) :
    (i.raw = true ∧ marks (i.word ++ "_") < marks i.text) ∨
      (marks (i.word ++ "_") = marks i.text ∧ i.text.length < (i.word ++ "_").length) := by
  cases hraw : i.raw with
  | true => exact .inl ⟨rfl, by simp [marks, Ident.text, hraw]⟩
  | false =>
    have hone : "_".length = 1 := rfl
    exact .inr (by simp [marks, Ident.text, hraw, hone])

/-- An identifier that is not the one asked for has lost a mark of raw form or is longer. -/
theorem Yields.eq_or_weight {i j : Ident} (h : Yields i j) :
    j = i ∨ marks j.text < marks i.text ∨
      (marks j.text = marks i.text ∧ i.text.length < j.text.length) := by
  induction h with
  | refl => exact .inl rfl
  | @longer i j _ ih =>
    rw [text_ofText] at ih
    refine .inr ?_
    have hstep := marks_longer i
    rcases ih with rfl | ih
    · rw [text_ofText]
      exact hstep.imp_left (·.2)
    · omega

/-- Points stay where they are. -/
theorem Yields.mem_text {i j : Ident} (h : Yields i j) (hi : '.' ∈ i.text.toList) :
    '.' ∈ j.text.toList := by
  induction h with
  | refl => exact hi
  | @longer i j _ ih =>
    apply ih
    rw [text_ofText, String.toList_append]
    cases hraw : i.raw <;> simpa [Ident.text, hraw] using hi

end Ident

/-- What was granted for a wish by the time that some words are taken: the wish itself, or an
    identifier with another word, as that of the wish is taken. -/
structure Ident.Becomes (taken : List String) (wish i : Ident) : Prop where
  yields : wish.Yields i
  granted : i = wish ∨ wish.word ∈ taken ∧ i.word ≠ wish.word

theorem Ident.Becomes.mono {taken taken' : List String} {wish i : Ident} (h : wish.Becomes taken i)
    (subset : taken ⊆ taken') : wish.Becomes taken' i :=
  ⟨h.yields, h.granted.imp_right fun hother => ⟨subset hother.1, hother.2⟩⟩

/-- A wish is granted if its word, where it is taken, is the word of what was granted for it. -/
theorem Ident.Becomes.eq_of_kept {taken : List String} {wish i : Ident} (h : wish.Becomes taken i)
    (kept : wish.word ∈ taken → i.word = wish.word) : i = wish :=
  h.granted.resolve_right fun hother => hother.2 (kept hother.1)

namespace Scope

theorem yields_free (taken : List String) (attempts : Nat) (wish : Ident) :
    wish.Yields (free taken attempts wish) := by
  induction attempts generalizing wish with
  | zero => exact .refl _
  | succ attempts ih =>
    rw [free]
    split
    · exact .longer (ih _)
    · exact .refl _

/-- Nothing longer is tried for a word that is not taken. -/
theorem free_of_not_mem {taken : List String} {wish : Ident} (h : wish.word ∉ taken)
    (attempts : Nat) : free taken attempts wish = wish := by
  cases attempts with
  | zero => rfl
  | succ attempts => rw [free, if_neg fun hcontains => h (List.contains_iff_mem.1 hcontains)]

theorem becomes_claim (s : Scope) (wish : Ident) :
    wish.Becomes (s.claim wish).2.taken (s.claim wish).1 := by
  refine ⟨yields_free _ _ _, ?_⟩
  by_cases htaken : wish.word ∈ s.taken
  · -- What is granted is not taken, so it is not the wish.
    have hfresh := (grants_claim s wish).fresh _ (List.mem_singleton_self _)
    exact .inr ⟨List.mem_cons_of_mem _ htaken, fun heq => hfresh (heq ▸ htaken)⟩
  · exact .inl (free_of_not_mem htaken _)

theorem Grants.subset {s s' : Scope} {words : List String} (h : Grants s s' words) :
    s.taken ⊆ s'.taken :=
  fun w hw => (h.taken w).2 (.inr hw)

theorem becomes_claimAll {wishes idents : List Ident} {s s' : Scope}
    (h : claimAll wishes s = (idents, s')) :
    List.Forall₂ (Ident.Becomes s'.taken) wishes idents := by
  induction wishes generalizing s idents with
  | nil =>
    cases h
    exact .nil
  | cons wish rest ih =>
    obtain ⟨is, hrest, rfl⟩ := claimAll_cons_ok h
    exact .cons ((becomes_claim s wish).mono (grants_claimAll hrest).subset) (ih hrest)

end Scope

/-! ## Modules -/

/-- The identifiers of a message are what those that its name asks for became. -/
structure MessageIdents.StemsFrom (i : MessageIdents) (taken : List String) (name : String) : Prop where
  ident : (Ident.ofType name).Becomes taken i.ident
  module : (Ident.ofModule name).Becomes taken i.module

theorem stemsFrom_zip {taken names : List String} {idents partials modules : List Ident}
    (hidents : List.Forall₂ (Ident.Becomes taken) (names.map .ofType) idents)
    (hpartials : partials.length = idents.length)
    (hmodules : List.Forall₂ (Ident.Becomes taken) (names.map .ofModule) modules) :
    List.Forall₂ (fun name i => MessageIdents.StemsFrom i taken name) names
      ((idents.zip (partials.zip modules)).map fun (i, p, m) => ⟨i, p, m⟩) := by
  induction names generalizing idents partials modules with
  | nil =>
    cases hidents
    exact .nil
  | cons name names ih =>
    obtain _ | ⟨hident, hidents⟩ := hidents
    obtain _ | ⟨hmodule, hmodules⟩ := hmodules
    obtain ⟨p, partials, rfl⟩ := List.exists_cons_of_length_eq_add_one hpartials
    exact .cons ⟨hident, hmodule⟩ (ih hidents (by simpa using hpartials) hmodules)

theorem stemsFrom_claimModule {messages enums : List String} {s s' : Scope} {claimed : ModuleIdents}
    (h : claimModule messages enums s = (claimed, s')) :
    List.Forall₂ (fun name i => MessageIdents.StemsFrom i s'.taken name) messages claimed.messages ∧
      List.Forall₂ (fun name i => (Ident.ofType name).Becomes s'.taken i) enums claimed.enums := by
  rcases hidents : s.claimAll (messages.map .ofType) with ⟨idents, s₁⟩
  rcases henums : s₁.claimAll (enums.map .ofType) with ⟨enumIdents, s₂⟩
  rcases hpartials : s₂.claimAll (idents.map fun i => .ofText (i.word ++ "Partial")) with
    ⟨partials, s₃⟩
  rcases hmodules : s₃.claimAll (messages.map .ofModule) with ⟨modules, s₄⟩
  simp only [claimModule, hidents, henums, hpartials, hmodules, Prod.mk.injEq] at h
  obtain ⟨rfl, rfl⟩ := h
  have hlength := Scope.length_of_claimAll hpartials
  rw [List.length_map] at hlength
  -- What was claimed first stays taken while the rest is claimed.
  have hlast : s₂.taken ⊆ s₄.taken := List.Subset.trans (Scope.grants_claimAll hpartials).subset
    (Scope.grants_claimAll hmodules).subset
  have hfirst : s₁.taken ⊆ s₄.taken := List.Subset.trans (Scope.grants_claimAll henums).subset hlast
  exact ⟨stemsFrom_zip ((Scope.becomes_claimAll hidents).imp fun _ _ h => h.mono hfirst) hlength
      (Scope.becomes_claimAll hmodules),
    List.forall₂_map_left_iff.1 ((Scope.becomes_claimAll henums).imp fun _ _ h => h.mono hlast)⟩

/-- What goes along with the names of some declarations goes along with the declarations. -/
theorem forall₂_of_names {α β : Type} {name : α → Option String} {R : String → β → Prop}
    {as : List α} {names : List String} {bs : List β}
    (hnames : as.mapM (required <| name ·) = .ok names) (h : List.Forall₂ R names bs) :
    List.Forall₂ (fun a b => ∃ n, name a = some n ∧ R n b) as bs := by
  have hall := mapM_eq_ok_iff.1 hnames
  clear hnames
  induction hall generalizing bs with
  | nil =>
    cases h
    exact .nil
  | cons hname _ ih =>
    obtain _ | ⟨hb, hbs⟩ := h
    exact .cons ⟨_, NameTable.required_eq_ok hname, hb⟩ (ih hbs)

/-! ## The table -/

namespace NameTable

variable {ctx : FileContext} {scope : String} {module : List Ident} {t t' : NameTable}
  {ms : List MessageDescriptor} {es : List EnumDescriptor} {s s' : Scope} {claimed : ModuleIdents}

/-- A message that is entered with others is entered as a module of its own. -/
theorem addMessages_of_mem_zip {idents : List MessageIdents}
    (h : addMessages ctx ms idents scope module t = .ok t')
    (hlength : idents.length = (ms.filter (!·.isMapEntry)).length) {m : MessageDescriptor}
    {i : MessageIdents} (hmem : (m, i) ∈ (ms.filter (!·.isMapEntry)).zip idents) :
    ∃ word named claimed inner t₀ t₁, m.name = some word ∧
      (scope ++ word, named) ∈ t'.messages ∧ named.idents = i ∧
      ModuleEntered ctx (scope ++ word ++ ".") (module ++ [i.module]) m.nestedTypes m.enumTypes {}
        inner claimed t₀ t₁ ∧ t₁.Grows t' := by
  induction ms generalizing idents t with
  | nil => simp at hmem
  | cons m' rest ih =>
    by_cases hentry : m'.isMapEntry
    · rw [addMessages_cons, if_pos hentry] at h
      rw [List.filter_cons_of_neg (by simpa using hentry)] at hlength hmem
      exact ih h hlength hmem
    · rw [List.filter_cons_of_pos (by simpa using hentry)] at hlength hmem
      obtain ⟨i', idents, rfl⟩ := List.exists_cons_of_length_eq_add_one hlength
      replace hlength : idents.length = (rest.filter (!·.isMapEntry)).length := by simpa using hlength
      obtain ⟨word, claimed, inner, t₁, named, hname, inside, hnamed, hrest⟩ :=
        addMessages_cons_ok hentry h
      rcases List.mem_cons.1 hmem with heq | hmem
      · cases heq
        -- What is inside the message stays as it is when the messages behind it are entered.
        have grows := (Entered.of_addMessages hrest hlength).grows
        exact ⟨word, named, claimed, inner, _, t₁, hname, grows.messages List.mem_cons_self,
          (messageNames_ok hnamed).1, inside, List.subset_of_cons_subset grows.messages, grows.enums⟩
      · exact ih hrest hlength hmem

/-- A message of a module has identifiers that its name asked the module for, and is entered as a
    module of its own. -/
theorem ModuleEntered.message_of_mem (h : ModuleEntered ctx scope module ms es s s' claimed t t')
    {m : MessageDescriptor} (hm : m ∈ ms) (hentry : m.isMapEntry = false) :
    ∃ name names inner claimed' t₀ t₁, m.name = some name ∧ (scope ++ name, names) ∈ t'.messages ∧
      names.idents.StemsFrom s'.taken name ∧
      ModuleEntered ctx (scope ++ name ++ ".") (module ++ [names.module]) m.nestedTypes m.enumTypes {}
        inner claimed' t₀ t₁ ∧ t₁.Grows t' := by
  have hlength := h.length_claimed.1
  obtain ⟨names, enumNames, hnames, henumNames, hclaim, -, henums, hmessages⟩ := h
  have hmem : m ∈ ms.filter (!·.isMapEntry) := List.mem_filter.2 ⟨hm, by simp [hentry]⟩
  obtain ⟨i, hi, name, hname, hstems⟩ :=
    exists_mem_zip_of_forall₂ (forall₂_of_names hnames (stemsFrom_claimModule hclaim).1) hmem
  obtain ⟨word, named, claimed', inner, t₀, t₁, hword, hentered, rfl, inside, grows⟩ :=
    addMessages_of_mem_zip hmessages hlength hi
  cases hname.symm.trans hword
  exact ⟨name, named, inner, claimed', t₀, t₁, hname, hentered, hstems, inside, grows⟩

/-- An enum of a module has the identifier that its name asked the module for. -/
theorem ModuleEntered.enum_of_mem (h : ModuleEntered ctx scope module ms es s s' claimed t t')
    {e : EnumDescriptor} (he : e ∈ es) :
    ∃ name names, e.name = some name ∧ (scope ++ name, names) ∈ t'.enums ∧
      (Ident.ofType name).Becomes s'.taken names.ident := by
  have hdeclares := h.entered.declares
  obtain ⟨names, enumNames, -, henumNames, hclaim, -, -, -⟩ := h
  obtain ⟨i, hi, name, hname, hbecomes⟩ :=
    exists_mem_zip_of_forall₂ (forall₂_of_names henumNames (stemsFrom_claimModule hclaim).2) he
  obtain ⟨word, names, hword, hentered, rfl⟩ := hdeclares.enums _ hi
  cases hname.symm.trans hword
  exact ⟨name, names, hname, hentered, hbecomes⟩

/-- The words that are taken where a module was entered in a scope of its own are those that the
    table has for it. -/
theorem ModuleEntered.taken_subset {T : NameTable}
    (h : ModuleEntered ctx scope module ms es s s' claimed t t') (keys : T.HasKeys)
    (grows : t'.Grows T) : s'.taken ⊆ T.moduleWords scope ms es ++ s.taken := by
  obtain ⟨hmessages, henums⟩ := h.length_claimed
  rw [moduleWords_eq keys (h.entered.declares.grow grows) (List.map_fst_zip hmessages.ge)
    (List.map_fst_zip henums.ge)]
  exact fun w hw => List.mem_append.2 ((h.grants.taken w).1 hw)

variable {settings : Settings} {files : List FileDescriptor} {scopes : List (Ident × Scope)}

/-- The words that the table has for what files declare in a module. -/
def wordsIn (t : NameTable) (files : List FileDescriptor) (module : String) : List String :=
  (files.filter (·.moduleIdent.word = module)).flatMap fun f =>
    t.moduleWords f.scope f.messageTypes f.enumTypes

theorem addFiles_moduleEntered {T : NameTable} (h : addFiles settings files scopes t = .ok t')
    (keys : T.HasKeys) (grows : t'.Grows T) {f : FileDescriptor} (hf : f ∈ files) :
    ∃ s s' claimed t₀ t₁, ModuleEntered (contextOf settings f) f.scope [f.moduleIdent] f.messageTypes
        f.enumTypes s s' claimed t₀ t₁ ∧ t₁.Grows T ∧
      s'.taken ⊆ T.wordsIn files f.moduleIdent.word ++ takenIn scopes f.moduleIdent.word := by
  induction files generalizing scopes t with
  | nil => cases hf
  | cons g files ih =>
    obtain ⟨⟨t₁, scope⟩, hfile, hrest⟩ := bind_eq_ok.1 h
    obtain ⟨claimed, inside⟩ := addFile_ok hfile
    have grows₁ := (FilesEntered.of_addFiles hrest).grows.trans grows
    have htaken := inside.taken_subset keys grows₁
    rw [← takenIn_moduleIdent] at htaken
    rcases List.mem_cons.1 hf with rfl | hf
    · refine ⟨_, _, _, _, _, inside, grows₁, List.Subset.trans htaken ?_⟩
      rw [wordsIn, List.filter_cons_of_pos (by simp), List.flatMap_cons, List.append_assoc]
      exact List.append_subset.2 ⟨List.subset_append_left _ _,
        List.subset_append_of_subset_right _ (List.subset_append_right _ _)⟩
    · obtain ⟨s, s', claimed', t₂, t₃, inside', grows', htaken'⟩ := ih hrest hf
      refine ⟨s, s', claimed', t₂, t₃, inside', grows', List.Subset.trans htaken' ?_⟩
      rw [takenIn_cons]
      by_cases hmodule : g.moduleIdent.word = f.moduleIdent.word
      · -- What this file claimed is among the words of the module, or was taken before.
        rw [if_pos hmodule, wordsIn, wordsIn, List.filter_cons_of_pos (by simpa using hmodule),
          List.flatMap_cons]
        rw [hmodule] at htaken
        intro w hw
        rcases List.mem_append.1 hw with hw | hw
        · simp [hw]
        · have hown := htaken hw
          simp only [List.mem_append] at hown ⊢
          tauto
      · rw [if_neg hmodule, wordsIn, wordsIn, List.filter_cons_of_neg (by simpa using hmodule)]
        exact List.Subset.refl _

/-- Each file of a schema was entered as a module, and what is taken there by then are words that
    the table has for it. -/
theorem exists_moduleEntered {d : DescriptorSet} (h : ofFiles settings d = .ok t)
    (distinct : d.HasDistinctTypes) {f : FileDescriptor} (hf : f ∈ d.files) :
    ∃ s s' claimed t₀ t₁, ModuleEntered (contextOf settings f) f.scope [f.moduleIdent] f.messageTypes
        f.enumTypes s s' claimed t₀ t₁ ∧ t₁.Grows t ∧
      s'.taken ⊆ t.wordsIn d.files f.moduleIdent.word := by
  obtain ⟨t, hfiles, rfl⟩ := ofFiles_ok h
  have keys := hasKeys_of_filesEntered (FilesEntered.of_addFiles hfiles) distinct
  -- The boxed fields, which are noted last, make no difference to the names.
  obtain ⟨s, s', claimed, t₀, t₁, inside, grows, htaken⟩ := addFiles_moduleEntered
    (T := { t with boxed := d.boxedFields }) hfiles ⟨keys.messages, keys.enums⟩
    ⟨List.Subset.refl _, List.Subset.refl _⟩ hf
  refine ⟨s, s', claimed, t₀, t₁, inside, grows, ?_⟩
  have hnone : takenIn [] f.moduleIdent.word = [] := rfl
  rwa [hnone, List.append_nil] at htaken

end NameTable

end Protobuf
