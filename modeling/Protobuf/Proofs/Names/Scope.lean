import Mathlib.Data.List.Nodup
import Protobuf.Names.Table

/-! # What a scope grants

Whatever identifier is asked for, the one that is granted is not taken: each longer form
that is tried has one more underscore, so no two of them are alike, and there are more of
them than words that are taken.

* `Scope.free_not_mem`: the search ends at a word that is not taken.
* `Scope.Grants`: words that a scope granted between two states.
* `Scope.grants_claim`, `Scope.grants_claimAll`, `grants_claimModule`: each claim is granted.
-/

namespace Protobuf

def underscores (word : String) : Nat := word.toList.count '_'

/-- Raw form takes no underscore away. -/
theorem underscores_ofText (text : String) :
    underscores (Ident.ofText text).word = underscores text := by
  unfold Ident.ofText
  split
  · rename_i word h
    rw [underscores, underscores, h, String.toList_ofList]
    simp
  · rfl

theorem underscores_longer (word : String) :
    underscores (Ident.ofText (word ++ "_")).word = underscores word + 1 := by
  rw [underscores_ofText, underscores, String.toList_append, List.count_append]
  rfl

namespace Scope

/-- As many attempts suffice as there are words that are taken and have no fewer
    underscores. -/
theorem free_not_mem {taken : List String} {attempts : Nat} {wish : Ident}
    (enough : (taken.filter fun w => underscores wish.word ≤ underscores w).length ≤ attempts) :
    (free taken attempts wish).word ∉ taken := by
  induction attempts generalizing wish with
  | zero =>
    intro hmem
    have hself : wish.word ∈ taken.filter fun w => underscores wish.word ≤ underscores w :=
      List.mem_filter.2 ⟨hmem, by simp⟩
    exact absurd (List.length_pos_of_mem hself) (by omega)
  | succ attempts ih =>
    rw [free]
    split
    · rename_i htaken
      apply ih
      rw [underscores_longer]
      -- The wish itself has too few underscores to stand in the way again.
      have hsub : (taken.filter fun w => underscores wish.word + 1 ≤ underscores w).Sublist
          (taken.filter fun w => underscores wish.word ≤ underscores w) := by
        refine List.monotone_filter_right taken fun w hw => ?_
        simp only [decide_eq_true_eq] at hw ⊢
        omega
      have hne : wish.word ∉ taken.filter fun w => underscores wish.word + 1 ≤ underscores w := by
        simp
      have hmem : wish.word ∈ taken.filter fun w => underscores wish.word ≤ underscores w :=
        List.mem_filter.2 ⟨List.contains_iff_mem.1 htaken, by simp⟩
      have hlt := Nat.lt_of_le_of_ne hsub.length_le fun heq => hne (hsub.eq_of_length heq ▸ hmem)
      omega
    · rename_i hfree
      exact fun hmem => hfree (List.contains_iff_mem.2 hmem)

/-! ## Grants -/

structure Grants (s s' : Scope) (words : List String) : Prop where
  taken : ∀ w, w ∈ s'.taken ↔ w ∈ words ∨ w ∈ s.taken
  nodup : words.Nodup
  fresh : ∀ w ∈ words, w ∉ s.taken

variable {s s' s'' : Scope} {ws vs : List String}

theorem Grants.nil (s : Scope) : Grants s s [] where
  taken := by simp
  nodup := List.nodup_nil
  fresh := by simp

theorem Grants.append (h : Grants s s' ws) (h' : Grants s' s'' vs) : Grants s s'' (ws ++ vs) where
  taken w := by
    rw [h'.taken, h.taken, List.mem_append]
    tauto
  nodup := by
    rw [List.nodup_append]
    refine ⟨h.nodup, h'.nodup, ?_⟩
    rintro w hw v hv rfl
    exact h'.fresh w hv ((h.taken w).2 (.inl hw))
  fresh w hw := by
    rcases List.mem_append.1 hw with hw | hw
    · exact h.fresh w hw
    · exact fun hmem => h'.fresh w hw ((h.taken w).2 (.inr hmem))

theorem Grants.perm (h : Grants s s' ws) (hperm : ws.Perm vs) : Grants s s' vs where
  taken w := by rw [h.taken, hperm.mem_iff]
  nodup := hperm.nodup_iff.1 h.nodup
  fresh w hw := h.fresh w (hperm.mem_iff.2 hw)

theorem grants_claim (s : Scope) (wish : Ident) :
    Grants s (s.claim wish).2 [(s.claim wish).1.word] where
  taken w := by rw [taken_claim, List.mem_cons, List.mem_singleton]
  nodup := List.nodup_singleton _
  fresh w hw := by
    rw [List.mem_singleton.1 hw]
    exact free_not_mem (List.length_filter_le _ _)

theorem claimAll_cons_ok {wish : Ident} {rest idents : List Ident}
    (h : claimAll (wish :: rest) s = (idents, s')) :
    ∃ is, claimAll rest (s.claim wish).2 = (is, s') ∧ idents = (s.claim wish).1 :: is := by
  rw [claimAll] at h
  rcases hrest : claimAll rest (s.claim wish).2 with ⟨is, s₂⟩
  simp only [hrest, Prod.mk.injEq] at h
  obtain ⟨rfl, rfl⟩ := h
  exact ⟨is, rfl, rfl⟩

theorem grants_claimAll {wishes idents : List Ident} (h : claimAll wishes s = (idents, s')) :
    Grants s s' (idents.map (·.word)) := by
  induction wishes generalizing s idents with
  | nil =>
    cases h
    exact .nil _
  | cons wish rest ih =>
    obtain ⟨is, hrest, rfl⟩ := claimAll_cons_ok h
    exact (grants_claim s wish).append (ih hrest)

theorem length_of_claimAll {wishes idents : List Ident} (h : claimAll wishes s = (idents, s')) :
    idents.length = wishes.length := by
  rw [← length_claimAll wishes s, h]

end Scope

/-! ## Modules -/

def MessageIdents.words (i : MessageIdents) : List String :=
  [i.ident.word, i.partialIdent.word, i.module.word]

def ModuleIdents.words (i : ModuleIdents) : List String :=
  i.enums.map (·.word) ++ i.messages.flatMap MessageIdents.words

theorem perm_words_zip {idents partials modules : List Ident}
    (hpartials : partials.length = idents.length) (hmodules : modules.length = idents.length) :
    (idents.map (·.word) ++ (partials.map (·.word) ++ modules.map (·.word))).Perm
      (((idents.zip (partials.zip modules)).map fun (i, p, m) => MessageIdents.mk i p m).flatMap
        MessageIdents.words) := by
  induction idents generalizing partials modules with
  | nil =>
    rw [List.length_nil, List.length_eq_zero_iff] at hpartials hmodules
    rw [hpartials, hmodules]
    exact .refl _
  | cons i idents ih =>
    obtain ⟨p, partials, rfl⟩ := List.exists_cons_of_length_eq_add_one hpartials
    obtain ⟨m, modules, rfl⟩ := List.exists_cons_of_length_eq_add_one hmodules
    have hrest := ih (by simpa using hpartials) (by simpa using hmodules)
    simp only [List.map_cons, List.zip_cons_cons, List.flatMap_cons, MessageIdents.words,
      List.cons_append, List.nil_append]
    refine .cons _ (List.perm_middle.trans (.cons _ ?_))
    rw [← List.append_assoc]
    refine List.perm_middle.trans (.cons _ ?_)
    rw [List.append_assoc]
    exact hrest

theorem length_claimModule (messages enums : List String) (scope : Scope) :
    (claimModule messages enums scope).1.messages.length = messages.length ∧
      (claimModule messages enums scope).1.enums.length = enums.length := by
  simp [claimModule, Scope.length_claimAll]

/-- What is claimed in a module has words of its own. -/
theorem grants_claimModule (messages enums : List String) (scope : Scope) :
    scope.Grants (claimModule messages enums scope).2 (claimModule messages enums scope).1.words := by
  rcases hidents : scope.claimAll (messages.map .ofType) with ⟨idents, s₁⟩
  rcases henums : s₁.claimAll (enums.map .ofType) with ⟨enumIdents, s₂⟩
  rcases hpartials : s₂.claimAll (idents.map fun i => .ofText (i.word ++ "Partial")) with
    ⟨partials, s₃⟩
  rcases hmodules : s₃.claimAll (messages.map .ofModule) with ⟨modules, s₄⟩
  simp only [claimModule, hidents, henums, hpartials, hmodules]
  -- The scope granted the words kind by kind; here they stand message by message.
  refine ((Scope.grants_claimAll hidents).append <| (Scope.grants_claimAll henums).append <|
    (Scope.grants_claimAll hpartials).append (Scope.grants_claimAll hmodules)).perm ?_
  refine (List.perm_append_comm_assoc _ _ _).trans (.append_left _ (perm_words_zip ?_ ?_))
  · simpa using Scope.length_of_claimAll hpartials
  · rw [Scope.length_of_claimAll hmodules, Scope.length_of_claimAll hidents]
    simp

example : (claimModule ["Hat", "HatPartial"] ["hat"] {}).1.words =
    ["hat", "Hat", "HatPartial_", "hat_", "HatPartial", "HatPartialPartial", "hat_partial"] := by
  decide +kernel

end Protobuf
