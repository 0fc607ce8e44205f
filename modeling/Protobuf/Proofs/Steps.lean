import Mathlib.Data.List.Forall2

/-! # Steps that may fail

What is done to a list is mostly done step by step, and ends with the first step that fails.

* `bind_eq_ok`, `bind_eq_error`, `map_eq_ok`, `mapError_eq_error`: a step, and what is made of
  its outcome.
* `exists_mem_zip_of_forall₂`, `exists_mem_of_forall₂`, `map_eq_of_forall₂`: lists that go
  along with each other, as outcomes go along with what they come from.
* `mapM_eq_ok_iff`, `exists_mapM_eq_ok`: steps each of which stands alone.
* `foldlM_ok`, `forall₂_of_foldlM`, `foldlM_error`: steps that hand something on.
-/

namespace Protobuf

section

variable {ε σ α β γ δ : Type}

theorem bind_eq_ok {x : Except ε α} {f : α → Except ε β} {b : β} :
    (x >>= f) = .ok b ↔ ∃ a, x = .ok a ∧ f a = .ok b := by
  cases x <;> simp [bind, Except.bind]

theorem bind_eq_error {x : Except ε α} {f : α → Except ε β} {e : ε} :
    (x >>= f) = .error e ↔ x = .error e ∨ ∃ a, x = .ok a ∧ f a = .error e := by
  cases x <;> simp [bind, Except.bind]

theorem map_eq_ok {x : Except ε α} {f : α → β} {b : β} :
    x.map f = .ok b ↔ ∃ a, x = .ok a ∧ f a = b := by
  cases x <;> simp [Except.map]

theorem mapError_eq_error {ε' : Type} {x : Except ε α} {f : ε → ε'} {e' : ε'} :
    x.mapError f = .error e' ↔ ∃ e, x = .error e ∧ f e = e' := by
  cases x <;> simp [Except.mapError]

theorem exists_of_isOk {x : Except ε α} (h : x.isOk = true) : ∃ a, x = .ok a := by
  cases x with
  | error => cases h
  | ok a => exact ⟨a, rfl⟩

theorem eq_ok_of_toOption {x : Except ε α} {a : α} (h : x.toOption = some a) : x = .ok a := by
  cases x with
  | error e => cases h
  | ok a' => rw [Option.some.inj h]

/-! ## Lists that go along with each other -/

section

variable {R : α → β → Prop} {as : List α} {bs : List β}

theorem exists_mem_zip_of_forall₂ (h : List.Forall₂ R as bs) {a : α} (ha : a ∈ as) :
    ∃ b, (a, b) ∈ as.zip bs ∧ R a b := by
  induction h with
  | nil => cases ha
  | @cons a' b' _ _ hone _ ih =>
    rcases List.mem_cons.1 ha with rfl | ha
    · exact ⟨b', List.mem_cons_self, hone⟩
    · obtain ⟨b, hb, hR⟩ := ih ha
      exact ⟨b, List.mem_cons_of_mem _ hb, hR⟩

theorem exists_mem_of_forall₂ (h : List.Forall₂ R as bs) {a : α} (ha : a ∈ as) :
    ∃ b ∈ bs, R a b := by
  obtain ⟨b, hb, hR⟩ := exists_mem_zip_of_forall₂ h ha
  exact ⟨b, (List.of_mem_zip hb).2, hR⟩

/-- Two lists that follow a third one agree where any two that follow one element do. -/
theorem map_eq_of_forall₂ {S : α → γ → Prop} {g : β → δ} {g' : γ → δ} {cs : List γ}
    (h : List.Forall₂ R as bs) (h' : List.Forall₂ S as cs)
    (same : ∀ a b, ∀ c ∈ cs, R a b → S a c → g b = g' c) : bs.map g = cs.map g' := by
  induction h generalizing cs with
  | nil =>
    rw [List.forall₂_nil_left_iff.1 h']
    rfl
  | cons hab _ ih =>
    obtain ⟨c, cs, hac, hrest, rfl⟩ := List.forall₂_cons_left_iff.1 h'
    rw [List.map_cons, List.map_cons, same _ _ _ List.mem_cons_self hab hac,
      ih hrest fun a b c hc => same a b c (List.mem_cons_of_mem _ hc)]

end

/-! ## Steps that stand alone -/

section

variable {f : α → Except ε β} {as : List α} {bs : List β}

theorem mapM_eq_ok_iff : as.mapM f = .ok bs ↔ List.Forall₂ (fun a b => f a = .ok b) as bs := by
  induction as generalizing bs with
  | nil =>
    rw [List.mapM_nil, List.forall₂_nil_left_iff]
    exact (Except.ok.injEq [] bs).to_iff.trans eq_comm
  | cons a as ih =>
    simp only [List.mapM_cons, List.forall₂_cons_left_iff, bind_eq_ok, ih]
    constructor
    · rintro ⟨b, hb, rest, hrest, h⟩
      cases h
      exact ⟨b, rest, hb, hrest, rfl⟩
    · rintro ⟨b, rest, hb, hrest, rfl⟩
      exact ⟨b, hb, rest, hrest, rfl⟩

/-- If `g` gives what does not fail, then it gives all of it. -/
theorem eq_map_of_mapM {g : α → β} (h : as.mapM f = .ok bs) (hg : ∀ a b, f a = .ok b → b = g a) :
    bs = as.map g := by
  have hall : List.Forall₂ (fun a b => b = g a) as bs := (mapM_eq_ok_iff.1 h).imp hg
  exact List.forall₂_eq_eq_eq ▸ List.forall₂_map_right_iff.2 hall.flip

theorem exists_mapM_eq_ok {P : β → Prop} (h : ∀ a ∈ as, ∃ b, f a = .ok b ∧ P b) :
    ∃ bs, as.mapM f = .ok bs ∧ ∀ b ∈ bs, P b := by
  induction as with
  | nil => exact ⟨[], rfl, by simp⟩
  | cons a rest ih =>
    obtain ⟨b, hb, hP⟩ := h a List.mem_cons_self
    obtain ⟨bs, hbs, hall⟩ := ih fun a' ha' => h a' (List.mem_cons_of_mem _ ha')
    exact ⟨b :: bs, by rw [List.mapM_cons, hb, hbs]; rfl, List.forall_mem_cons.2 ⟨hP, hall⟩⟩

end

/-! ## Steps that hand something on -/

/-- What holds at the start and is kept by each step, in terms of what was gone through, holds
    at the end. -/
theorem foldlM_ok {f : σ → α → Except ε σ} {P : List α → σ → Prop} {as : List α}
    {s s' : σ} (h : as.foldlM f s = .ok s') (start : P [] s)
    (step : ∀ done a s s', P done s → f s a = .ok s' → P (done ++ [a]) s') : P as s' := by
  have hall : ∀ done, P done s → P (done ++ as) s' := by
    clear start
    induction as generalizing s with
    | nil =>
      intro done hP
      cases h
      rwa [List.append_nil]
    | cons a as ih =>
      intro done hP
      obtain ⟨s₁, hone, hrest⟩ := bind_eq_ok.1 (List.foldlM_cons (m := Except ε) ▸ h)
      have := ih hrest (done ++ [a]) (step done a s s₁ hP hone)
      rwa [List.append_assoc] at this
  exact hall [] start

/-- Steps that do not all succeed go well up to the one that fails. -/
theorem foldlM_error {f : σ → α → Except ε σ} {as : List α} {s : σ} {e : ε}
    (h : as.foldlM f s = .error e) :
    ∃ done a rest s', as = done ++ a :: rest ∧ done.foldlM f s = .ok s' ∧ f s' a = .error e := by
  induction as generalizing s with
  | nil => cases h
  | cons a as ih =>
    rw [List.foldlM_cons] at h
    rcases bind_eq_error.1 h with hone | ⟨s', hone, hrest⟩
    · exact ⟨[], a, as, s, rfl, rfl, hone⟩
    · obtain ⟨done, b, rest, s'', rfl, hdone, hfails⟩ := ih hrest
      refine ⟨a :: done, b, rest, s'', rfl, ?_, hfails⟩
      rw [List.foldlM_cons, hone]
      exact hdone

/-- Steps that add something to a list for each element that is kept, and nothing for the
    others, have added one for each that is kept. -/
theorem forall₂_of_foldlM {f : List β → α → Except ε (List β)} {R : α → β → Prop}
    (keep : α → Bool) {as : List α} {bs : List β} (h : as.foldlM f [] = .ok bs)
    (step : ∀ a ∈ as, ∀ bs bs', f bs a = .ok bs' →
      if keep a then ∃ b, R a b ∧ bs' = bs ++ [b] else bs' = bs) :
    List.Forall₂ R (as.filter keep) bs := by
  refine foldlM_ok (P := fun done bs => (∀ a ∈ done, a ∈ as) →
    List.Forall₂ R (done.filter keep) bs) h (fun _ => .nil) ?_ fun _ ha => ha
  intro done a bs bs' hdone hstep hmem
  rw [List.forall_mem_append, List.forall_mem_singleton] at hmem
  have hadded := step a hmem.2 bs bs' hstep
  rw [List.filter_append, List.filter_singleton]
  cases hkeep : keep a with
  | true =>
    rw [if_pos hkeep] at hadded
    obtain ⟨b, hb, rfl⟩ := hadded
    exact List.rel_append (hdone hmem.1) (.cons hb .nil)
  | false =>
    rw [if_neg (by simp [hkeep])] at hadded
    subst hadded
    simpa using hdone hmem.1

end

end Protobuf
