import Protobuf.Names.TypePath
import Protobuf.Proofs.Steps

/-! # Relative paths lead to their target

The code of a relative path is read step by step: `super` leads from a module to the one around
it, any other word into a module that is declared there.  Steps out of modules never touch what
is further out than there are such steps.  So a way from one module to another has to leave at
least those modules that the two do not share, and the relative path leaves no others.

* `RelativePath.Step`, `walk`, `steps`: steps between modules, and those of a relative path.
* `RelativePath.walk_steps`: step by step a relative path leads where it is said to.
* `RelativePath.OutOfReach.prefix_of_walk`: what steps leave as it is.
* `RelativePath.sharedLength`, `between_eq`: the modules that two paths share, and what is left
  of both behind them.
* `RelativePath.between_leads`: the path from a module to a name in another leads there, and no
  way there has fewer steps out.
-/

namespace Protobuf.RelativePath

inductive Step
  | up
  | into (module : Ident)
deriving DecidableEq, Repr

def Step.perform (module : List Ident) : Step → Option (List Ident)
  | .up => if module = [] then none else some module.dropLast
  | .into name => some (module ++ [name])

def Step.tokens : Step → List String
  | .up => ["super ::"]
  | .into name => [name.text, "::"]

/-- The module that steps lead to, if none of them leads out of the outermost module. -/
def walk (module : List Ident) (steps : List Step) : Option (List Ident) :=
  steps.foldlM Step.perform module

def steps (p : RelativePath) : List Step := List.replicate p.up .up ++ p.down.map .into

variable {module source target shared : List Ident} {ident : Ident} {p : RelativePath}

theorem walk_cons (module : List Ident) (step : Step) (rest : List Step) :
    walk module (step :: rest) = (step.perform module).bind (walk · rest) := by
  rw [walk, List.foldlM_cons]
  rfl

theorem walk_append (module : List Ident) (front back : List Step) :
    walk module (front ++ back) = (walk module front).bind (walk · back) := by
  rw [walk, List.foldlM_append]
  rfl

/-- Steps that lead somewhere stay inside the outermost module all along. -/
theorem exists_walk_of_prefix {front steps : List Step} (hpart : front <+: steps)
    (h : walk module steps = some target) : ∃ stop, walk module front = some stop := by
  obtain ⟨back, rfl⟩ := hpart
  rw [walk_append, Option.bind_eq_some_iff] at h
  obtain ⟨stop, hfront, -⟩ := h
  exact ⟨stop, hfront⟩

theorem walk_replicate_up (k : Nat) (module : List Ident) :
    walk module (List.replicate k .up) =
      if k ≤ module.length then some (module.take (module.length - k)) else none := by
  induction k generalizing module with
  | zero => simp [walk]
  | succ k ih =>
    rw [List.replicate_succ, walk_cons, Step.perform]
    by_cases hmodule : module = []
    · subst hmodule
      simp
    · have hpos := List.length_pos_iff.2 hmodule
      rw [if_neg hmodule, Option.bind_some, ih, List.length_dropLast]
      by_cases hk : k + 1 ≤ module.length
      · have hle : module.length - 1 - k ≤ module.length - 1 := Nat.sub_le _ _
        rw [if_pos (by omega), if_pos hk, List.dropLast_eq_take, List.take_take,
          Nat.min_eq_left hle, Nat.sub_sub, Nat.add_comm]
      · rw [if_neg (by omega), if_neg hk]

theorem walk_into (module names : List Ident) :
    walk module (names.map .into) = some (module ++ names) := by
  induction names generalizing module with
  | nil => simp [walk]
  | cons name names ih =>
    rw [List.map_cons, walk_cons, Step.perform, Option.bind_some, ih, List.append_assoc,
      List.singleton_append]

/-- Step by step a relative path leads where it is said to. -/
theorem walk_steps (module : List Ident) (p : RelativePath) :
    walk module p.steps = (p.follow module).map (·.1) := by
  rw [steps, walk_append, walk_replicate_up, follow]
  split
  · rw [Option.bind_some, walk_into]
    rfl
  · rfl

theorem count_up_steps (p : RelativePath) : p.steps.count .up = p.up := by
  have hdown : (p.down.map Step.into).count .up = 0 := by
    rw [List.count_eq_zero, List.mem_map]
    rintro ⟨name, -, h⟩
    cases h
  rw [steps, List.count_append, List.count_replicate_self, hdown, Nat.add_zero]

/-! ## What steps leave as it is -/

/-- The module `shared` is `module` or around it, and further out than steps lead from there. -/
structure OutOfReach (shared module : List Ident) (steps : List Step) : Prop where
  around : shared <+: module
  below : shared.length + steps.count .up ≤ module.length

/-- What is out of reach stays so with each step. -/
theorem OutOfReach.perform {step : Step} {next : List Ident} {rest : List Step}
    (h : OutOfReach shared module (step :: rest)) (hstep : step.perform module = some next) :
    OutOfReach shared next rest := by
  obtain ⟨around, below⟩ := h
  cases step with
  | up =>
    rw [List.count_cons_self] at below
    rw [Step.perform] at hstep
    split at hstep
    · cases hstep
    · -- Only the last module is left, and `shared` ends before it.
      cases hstep
      refine ⟨?_, by rw [List.length_dropLast]; omega⟩
      rw [List.prefix_iff_eq_take.1 around, List.dropLast_eq_take]
      exact List.take_prefix_take_left (by omega)
  | into name =>
    cases hstep
    rw [List.count_cons_of_ne Step.noConfusion] at below
    refine ⟨around.trans (List.prefix_append _ _), ?_⟩
    rw [List.length_append]
    omega

/-- What is out of reach of steps is around the module that they lead to as well. -/
theorem OutOfReach.prefix_of_walk {steps : List Step} (h : OutOfReach shared module steps)
    (hwalk : walk module steps = some target) : shared <+: target := by
  induction steps generalizing module with
  | nil =>
    cases hwalk
    exact h.around
  | cons step rest ih =>
    rw [walk_cons, Option.bind_eq_some_iff] at hwalk
    obtain ⟨next, hstep, hrest⟩ := hwalk
    exact ih (h.perform hstep) hrest

/-! ## What modules share -/

def sharedLength (source target : List Ident) : Nat :=
  ((source.zip target).takeWhile fun (s, t) => s = t).length

theorem sharedLength_cons_self (name : Ident) (source target : List Ident) :
    sharedLength (name :: source) (name :: target) = sharedLength source target + 1 := by
  simp [sharedLength]

theorem sharedLength_cons_of_ne {s t : Ident} (h : s ≠ t) (source target : List Ident) :
    sharedLength (s :: source) (t :: target) = 0 := by
  simp [sharedLength, h]

theorem sharedLength_le (source target : List Ident) :
    sharedLength source target ≤ source.length := by
  have hzip : (source.zip target).length ≤ source.length := by
    rw [List.length_zip]
    exact Nat.min_le_left _ _
  exact Nat.le_trans (List.takeWhile_prefix _).length_le hzip

theorem take_sharedLength (source target : List Ident) :
    source.take (sharedLength source target) = target.take (sharedLength source target) := by
  induction source generalizing target with
  | nil => simp [sharedLength]
  | cons s source ih =>
    cases target with
    | nil => simp [sharedLength]
    | cons t target =>
      by_cases hst : s = t
      · subst hst
        rw [sharedLength_cons_self, List.take_succ_cons, List.take_succ_cons, ih]
      · rw [sharedLength_cons_of_ne hst]
        rfl

/-- No longer path is what both begin with. -/
theorem length_le_sharedLength (hsource : shared <+: source) (htarget : shared <+: target) :
    shared.length ≤ sharedLength source target := by
  induction shared generalizing source target with
  | nil => exact Nat.zero_le _
  | cons name shared ih =>
    obtain ⟨source, rfl, hsource'⟩ := List.cons_prefix_iff.1 hsource
    obtain ⟨target, rfl, htarget'⟩ := List.cons_prefix_iff.1 htarget
    rw [sharedLength_cons_self, List.length_cons]
    exact Nat.succ_le_succ (ih hsource' htarget')

/-! ## From module to module -/

/-- The path goes up from all modules that are not shared, and down into those of the target. -/
theorem between_eq (source target : List Ident) (ident : Ident) :
    between source target ident = ⟨source.length - sharedLength source target,
      target.drop (sharedLength source target), ident⟩ := by
  induction source generalizing target with
  | nil => rfl
  | cons s source ih =>
    cases target with
    | nil => rfl
    | cons t target =>
      rw [between]
      by_cases hst : s = t
      · subst hst
        rw [if_pos rfl, ih, sharedLength_cons_self, List.length_cons, List.drop_succ_cons,
          Nat.add_sub_add_right]
      · rw [if_neg hst, sharedLength_cons_of_ne hst]
        rfl

/-- The path from one module to a name in another leads there. -/
theorem follow_between (source target : List Ident) (ident : Ident) :
    (between source target ident).follow source = some (target, ident) := by
  have hle := sharedLength_le source target
  rw [between_eq, follow, if_pos (Nat.sub_le _ _), Nat.sub_sub_self hle, take_sharedLength,
    List.take_append_drop]

theorem walk_between (source target : List Ident) (ident : Ident) :
    walk source (between source target ident).steps = some target := by
  rw [walk_steps, follow_between]
  rfl

/-- No way from a module to another has fewer steps out. -/
theorem up_le_of_walk {steps : List Step} (h : walk source steps = some target) :
    (between source target ident).up ≤ steps.count .up := by
  rw [between_eq]
  by_cases hup : source.length ≤ steps.count .up
  · exact Nat.le_trans (Nat.sub_le _ _) hup
  · -- What is out of reach of the steps is shared.
    have hlength : (source.take (source.length - steps.count .up)).length =
        source.length - steps.count .up := List.length_take_of_le (Nat.sub_le _ _)
    have hreach : OutOfReach (source.take (source.length - steps.count .up)) source steps :=
      ⟨List.take_prefix _ _, by omega⟩
    have hshared := length_le_sharedLength hreach.around (hreach.prefix_of_walk h)
    show source.length - sharedLength source target ≤ steps.count .up
    omega

/-! ## Paths that lead to a name -/

theorem listTokens_eq (cs : List Code) : Code.listTokens cs = cs.flatMap Code.tokens := by
  induction cs with
  | nil => rfl
  | cons c cs ih => rw [Code.listTokens, ih, List.flatMap_cons]

/-- The code of a path is what its steps are written as, and then its name. -/
theorem tokens_code (p : RelativePath) :
    p.code.tokens = p.steps.flatMap Step.tokens ++ [p.ident.text] := by
  rw [code]
  split
  · -- A name in the same module has no steps in front of it.
    rename_i hhere
    rw [steps, hhere.1, List.isEmpty_iff.1 hhere.2]
    rfl
  · have hup : (List.replicate p.up (Code.fixed "super ::")).flatMap Code.tokens =
        (List.replicate p.up Step.up).flatMap Step.tokens := by
      rw [List.flatMap_replicate, List.flatMap_replicate]
      rfl
    have hdown :
        (p.down.map fun (name : Ident) => Code.sequence [name, "::"]).flatMap Code.tokens =
          (p.down.map Step.into).flatMap Step.tokens := by
      rw [List.flatMap_map, List.flatMap_map]
      rfl
    rw [Code.tokens, listTokens_eq, List.flatMap_append, List.flatMap_append, hup, hdown, steps,
      List.flatMap_append]
    rfl

example : (between [⟨"shop", false⟩, ⟨"hat", false⟩] [⟨"shop", false⟩, ⟨"band", false⟩]
    ⟨"Width", false⟩).code.tokens = ["super ::", "band", "::", "Width"] := rfl

/-- A path is refused only for a name on it. -/
theorem checked_of_names (hdown : ∀ name ∈ p.down, name.checked = .ok name)
    (hident : p.ident.checked = .ok p.ident) : p.checked = .ok p := by
  rw [checked, mapM_eq_ok_iff.2 (List.forall₂_same.2 hdown), hident]
  rfl

/-- The code of a path leads from a module to a name in another, by steps of which as few as
    possible lead out of modules. -/
structure Leads (source target : List Ident) (ident : Ident) (p : RelativePath) : Prop where
  /-- The code is what the steps are written as, and the name behind them. -/
  code : p.code.tokens = p.steps.flatMap Step.tokens ++ [ident.text]
  /-- On no part of the way the outermost module is left. -/
  inside : ∀ front, front <+: p.steps → ∃ stop, walk source front = some stop
  arrives : walk source p.steps = some target
  fewest : ∀ steps, walk source steps = some target → p.steps.count .up ≤ steps.count .up

/-- The path from a module to a name in another goes up from all modules that the two do not
    share, and down into those of the target.  Its code leads there step by step, never out of the
    outermost module, and no steps that lead there have fewer among them that lead out of a
    module.  The path is refused only if a name on it is no identifier. -/
theorem between_leads (source target : List Ident) (ident : Ident) :
    Leads source target ident (between source target ident) ∧
    between source target ident = ⟨source.length - sharedLength source target,
      target.drop (sharedLength source target), ident⟩ ∧
    (between source target ident).follow source = some (target, ident) ∧
    ((∀ name ∈ target, name.checked = .ok name) → ident.checked = .ok ident →
      (between source target ident).checked = .ok (between source target ident)) := by
  have harrives := walk_between source target ident
  refine ⟨⟨?_, fun front hfront => exists_walk_of_prefix hfront harrives, harrives, ?_⟩,
    between_eq source target ident, follow_between source target ident, ?_⟩
  · rw [tokens_code, between_eq]
  · intro steps h
    rw [count_up_steps]
    exact up_le_of_walk h
  · intro hnames hident
    rw [between_eq]
    exact checked_of_names (fun name hname => hnames name (List.mem_of_mem_drop hname)) hident

end Protobuf.RelativePath
