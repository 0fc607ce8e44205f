import Mathlib.Algebra.Order.BigOperators.Group.List
import Mathlib.Algebra.Order.Ring.Nat
import Protobuf.Proofs.Names.Numbers
import Protobuf.Proofs.Names.Wishes

/-! # Paths below a package

If the settings have a path for a package, each type of the package has the path that the parts
of its name give, one by one.  That is the path of what a program declares under these names as
long as no scope made another identifier of one, and no name has a dot in it.

* `externPathWithin_eq_some`: the longest front of a name that has a path.
* `externPath?_below`: the path of a type of the package.
* `nameWishes`: the identifiers that names ask for.
* `pathBelow_eq_iff`: the path that the parts of a name give, and that of what was granted.
-/

namespace Protobuf

theorem splitChars_eq_splitOn (sep : Char) (cs : List Char) : splitChars sep cs = cs.splitOn sep := by
  induction cs with
  | nil => rfl
  | cons c rest ih =>
    rw [splitChars, List.splitOn_cons_eq_if_modifyHead, ← ih]
    by_cases hc : c = sep
    · rw [if_pos hc, if_pos (beq_iff_eq.2 hc)]
    · rw [if_neg hc, if_neg (mt beq_iff_eq.1 hc)]
      obtain ⟨piece, pieces, hp⟩ := List.exists_cons_of_ne_nil (splitChars_ne_nil sep rest)
      rw [hp, List.modifyHead_cons]

theorem not_mem_of_mem_splitChars {sep : Char} {cs piece : List Char}
    (h : piece ∈ splitChars sep cs) : sep ∉ piece := by
  induction cs generalizing piece with
  | nil =>
    rw [splitChars, List.mem_singleton] at h
    rw [h]
    exact List.not_mem_nil
  | cons c rest ih =>
    rw [splitChars] at h
    by_cases hc : c = sep
    · rw [if_pos hc, List.mem_cons] at h
      rcases h with rfl | h
      · exact List.not_mem_nil
      · exact ih h
    · obtain ⟨first, pieces, hp⟩ := List.exists_cons_of_ne_nil (splitChars_ne_nil sep rest)
      rw [if_neg hc, hp, List.mem_cons] at h
      rw [hp] at ih
      rcases h with rfl | h
      · rw [List.mem_cons, not_or]
        exact ⟨Ne.symm hc, ih List.mem_cons_self⟩
      · exact ih (List.mem_cons_of_mem _ h)

/-- No part of a name has a dot in it. -/
theorem not_mem_of_mem_splitText {text part : String} (h : part ∈ splitText '.' text) :
    '.' ∉ part.toList := by
  obtain ⟨piece, hpiece, rfl⟩ := List.mem_map.1 h
  rw [String.toList_ofList]
  exact not_mem_of_mem_splitChars hpiece

theorem splitText_ne_nil (text : String) : splitText '.' text ≠ [] := by
  rw [splitText, ne_eq, List.map_eq_nil_iff]
  exact splitChars_ne_nil _ _

theorem append_dot_ne_empty (a b : String) : a ++ "." ++ b ≠ "" := by
  rw [ne_eq, ← String.toList_inj]
  simp

theorem splitText_append (a b : String) :
    splitText '.' (a ++ "." ++ b) = splitText '.' a ++ splitText '.' b := by
  have hchars : (a ++ "." ++ b).toList = a.toList ++ '.' :: b.toList := by simp
  simp only [splitText, splitChars_eq_splitOn, hchars, List.splitOn_append_cons_self, List.map_append]

theorem intercalate_splitText (text : String) : ".".intercalate (splitText '.' text) = text := by
  have hpieces : (splitText '.' text).map String.toList = splitChars '.' text.toList := by
    simp [splitText, Function.comp_def]
  rw [← String.toList_inj, String.toList_intercalate, hpieces]
  exact splitChars_join '.' text.toList

theorem splitText_intercalate {names : List String} (hne : names ≠ [])
    (h : ∀ name ∈ names, '.' ∉ name.toList) : splitText '.' (".".intercalate names) = names := by
  have hpieces : ∀ l ∈ names.map String.toList, '.' ∉ l := by
    intro l hl
    obtain ⟨name, hname, rfl⟩ := List.mem_map.1 hl
    exact h name hname
  rw [splitText, splitChars_eq_splitOn, String.toList_intercalate]
  show (List.splitOn '.' (['.'].intercalate (names.map String.toList))).map String.ofList = names
  rw [List.splitOn_intercalate _ hpieces (by simpa using hne), List.map_map]
  simp [Function.comp_def]

/-! ## From the whole name up -/

section

variable {paths : List (String × String)} {segments : List String} {name path : String}

theorem externPath?_eq (paths : List (String × String)) (typeName : String) :
    externPath? paths typeName =
      externPathWithin paths (splitText '.' typeName) (splitText '.' typeName).length := rfl

theorem externPathWithin_succ (segments : List String) (front : Nat)
    (hname : ".".intercalate (segments.take (front + 1)) = name) (nonempty : name ≠ "") :
    externPathWithin paths segments (front + 1) =
      match entryOf? name paths with
      | some path => some (belowPath path (segments.drop (front + 1)))
      | none => externPathWithin paths segments front := by
  rw [externPathWithin]
  simp only [hname, if_neg nonempty, entryOf?]
  cases paths.find? (·.1 = name) <;> rfl

/-- If no front of a name has a path, nothing is found. -/
theorem externPathWithin_eq_none {front : Nat}
    (h : ∀ count, 0 < count → count ≤ front → ".".intercalate (segments.take count) ≠ "" →
      ".".intercalate (segments.take count) ∉ paths.map (·.1)) :
    externPathWithin paths segments front = none := by
  induction front with
  | zero => rfl
  | succ front ih =>
    by_cases hempty : ".".intercalate (segments.take (front + 1)) = ""
    · simp [externPathWithin, hempty]
    · have hnone := entryOf?_eq_none_iff.2 (h (front + 1) (by omega) le_rfl hempty)
      rw [externPathWithin_succ segments front rfl hempty, hnone]
      exact ih fun count pos le => h count pos (by omega)

/-- A front of a name that has a path is found, if no longer one has. -/
theorem externPathWithin_eq_some {front rest : List String} (hfront : front ≠ [])
    (hname : ".".intercalate front = name) (nonempty : name ≠ "")
    (hpath : entryOf? name paths = some path) {more : Nat} (hmore : more ≤ rest.length)
    (longer : ∀ count, 0 < count → count ≤ more →
      ".".intercalate (front ++ rest.take count) ∉ paths.map (·.1)) :
    externPathWithin paths (front ++ rest) (front.length + more) = some (belowPath path rest) := by
  induction more with
  | zero =>
    obtain ⟨n, hn⟩ : ∃ n, front.length = n + 1 :=
      Nat.exists_eq_succ_of_ne_zero (mt List.length_eq_zero_iff.1 hfront)
    have htake : ".".intercalate ((front ++ rest).take (n + 1)) = name := by
      rw [← hn, List.take_left, hname]
    rw [Nat.add_zero, hn, externPathWithin_succ _ n htake nonempty, hpath, ← hn, List.drop_left]
  | succ more ih =>
    have htake : (front ++ rest).take (front.length + more + 1) = front ++ rest.take (more + 1) := by
      rw [Nat.add_assoc, List.take_length_add_append]
    have hne : ".".intercalate (front ++ rest.take (more + 1)) ≠ "" := by
      have hrest : rest.take (more + 1) ≠ [] := by
        rw [ne_eq, List.take_eq_nil_iff, ← List.length_eq_zero_iff]
        omega
      rw [String.intercalate_append_of_ne_nil hfront hrest]
      exact append_dot_ne_empty _ _
    have hnone := entryOf?_eq_none_iff.2 (longer (more + 1) (by omega) le_rfl)
    rw [← Nat.add_assoc, externPathWithin_succ _ _ (congrArg _ htake) hne, hnone]
    exact ih (by omega) fun count pos le => longer count pos (by omega)

end

/-- A type of a package that has a path has the path that the parts of its name give below it. -/
theorem externPath?_below (package path rest : String) :
    externPath? [("." ++ package, path)] ("." ++ package ++ "." ++ rest) =
      some (belowPath path (splitText '.' rest)) := by
  have hne : "." ++ package ≠ "" := by simp [← String.toList_inj]
  rw [externPath?_eq, splitText_append ("." ++ package) rest, List.length_append]
  refine externPathWithin_eq_some (splitText_ne_nil _) (intercalate_splitText _) hne
    (by simp [entryOf?]) le_rfl fun count pos le hlisted => ?_
  -- The package is the only name that has a path, and this one is longer.
  have hrest : (splitText '.' rest).take count ≠ [] := by
    rw [ne_eq, List.take_eq_nil_iff, ← List.length_eq_zero_iff]
    omega
  rw [String.intercalate_append_of_ne_nil (splitText_ne_nil _) hrest, intercalate_splitText,
    List.map_singleton, List.mem_singleton] at hlisted
  have hlength := congrArg (·.length) hlisted
  have hdot : ".".length = 1 := rfl
  simp only [String.length_append, hdot] at hlength
  omega

theorem externPath?_nil (typeName : String) : externPath? [] typeName = none := by
  have hnone : ∀ segments front, externPathWithin [] segments front = none := by
    intro segments front
    induction front with
    | zero => rfl
    | succ front ih => simp [externPathWithin, ih]
  exact hnone _ _

/-! ## What names ask for -/

/-- The identifiers that the names on the way to a type ask for: modules, and the type itself. -/
def nameWishes : List String → List Ident
  | [] => []
  | [name] => [.ofType name]
  | part :: rest => .ofModule part :: nameWishes rest

/-- The path of an identifier in a module below a path, told by the names from the path on. -/
def pathBelow (path : String) (idents : List Ident) : String :=
  idents.foldl (fun path i => path ++ "::" ++ i.text) path

theorem belowPath_eq (path : String) (parts : List String) :
    belowPath path parts = pathBelow path (nameWishes parts) := by
  fun_induction belowPath path parts with
  | case1 => rfl
  | case2 path name => rw [nameWishes, pathBelow, List.foldl_cons, Ident.ofType, Ident.text_ofText]; rfl
  | case3 path part rest hrest ih =>
    rw [ih, nameWishes.eq_3 _ _ hrest, pathBelow, pathBelow, List.foldl_cons, Ident.ofModule,
      Ident.text_ofText]

theorem count_pathBelow {c : Char} (hc : c ≠ ':') (path : String) (idents : List Ident) :
    (pathBelow path idents).toList.count c =
      path.toList.count c + (idents.map fun i => i.text.toList.count c).sum := by
  unfold pathBelow
  induction idents generalizing path with
  | nil => rfl
  | cons i rest ih =>
    rw [List.foldl_cons, ih]
    have hcolons : "::".toList.count c = 0 := by simp [hc.symm]
    simp only [String.toList_append, List.count_append, hcolons, List.map_cons, List.sum_cons]
    omega

theorem length_pathBelow (path : String) (idents : List Ident) :
    (pathBelow path idents).length =
      path.length + (idents.map fun i => i.text.length).sum + 2 * idents.length := by
  unfold pathBelow
  induction idents generalizing path with
  | nil => rfl
  | cons i rest ih =>
    have hcolons : "::".length = 2 := rfl
    rw [List.foldl_cons, ih]
    simp only [String.length_append, hcolons, List.map_cons, List.sum_cons, List.length_cons]
    omega

/-- Identifiers that are not those asked for have lost marks of raw form or are longer. -/
theorem eq_or_weights {wishes idents : List Ident} (h : List.Forall₂ Ident.Yields wishes idents) :
    idents = wishes ∨
      (idents.map fun i => i.text.toList.count '#').sum <
        (wishes.map fun i => i.text.toList.count '#').sum ∨
      (idents.map fun i => i.text.toList.count '#').sum =
          (wishes.map fun i => i.text.toList.count '#').sum ∧
        (wishes.map fun i => i.text.length).sum < (idents.map fun i => i.text.length).sum := by
  induction h with
  | nil => exact .inl rfl
  | cons hone _ ih =>
    simp only [List.map_cons, List.sum_cons]
    rcases hone.eq_or_weight with rfl | hone
    · rcases ih with rfl | ih
      · exact .inl rfl
      · exact .inr (by omega)
    · refine .inr ?_
      unfold Ident.marks at hone
      rcases ih with rfl | ih <;> omega

theorem pathBelow_inj {path : String} {wishes idents : List Ident}
    (h : List.Forall₂ Ident.Yields wishes idents) :
    pathBelow path wishes = pathBelow path idents ↔ idents = wishes := by
  refine ⟨fun heq => ?_, fun heq => by rw [heq]⟩
  have hmarks := congrArg (·.toList.count '#') heq
  have hlength := congrArg (·.length) heq
  simp only [count_pathBelow (show '#' ≠ ':' by decide), length_pathBelow, h.length_eq] at hmarks hlength
  exact (eq_or_weights h).resolve_right (by omega)

/-! ## Dots -/

theorem eq_toLower_iff (c : Char) : '.' = c.toLower ↔ '.' = c := by
  unfold Char.toLower
  split
  · rename_i h
    have hlower : 65 ≤ c.toNat := UInt32.le_iff_toNat_le.1 h.1
    have hupper : c.toNat ≤ 90 := UInt32.le_iff_toNat_le.1 h.2
    refine iff_of_false (fun hsmall => ?_) ?_
    · have hval : 46 = (c.toNat + 32) % 2 ^ 32 := congrArg Char.toNat hsmall
      omega
    · rintro rfl
      exact absurd hlower (by decide)
  · rfl

theorem mem_snakeChars {before : Option Char} {cs : List Char} :
    '.' ∈ snakeChars before cs ↔ '.' ∈ cs := by
  induction cs generalizing before with
  | nil => rfl
  | cons c rest ih =>
    rw [snakeChars]
    split
    · split <;> simp [ih, eq_toLower_iff]
    · simp [ih]

theorem mem_unreserved {word : String} : '.' ∈ (unreserved word).toList ↔ '.' ∈ word.toList := by
  unfold unreserved
  split <;> simp

theorem mem_typeWord {name : String} : '.' ∈ (typeWord name).toList ↔ '.' ∈ name.toList := by
  rw [typeWord, mem_unreserved, undigited]
  split
  · split <;> simp
  · rfl

theorem mem_moduleWord {name : String} : '.' ∈ (moduleWord name).toList ↔ '.' ∈ name.toList := by
  rw [moduleWord, mem_unreserved, snakeCase, String.toList_ofList, mem_snakeChars]

/-- A name with a dot asks for an identifier with one, and no other name does. -/
theorem exists_mem_nameWishes {names : List String} :
    (∃ wish ∈ nameWishes names, '.' ∈ wish.text.toList) ↔ ∃ name ∈ names, '.' ∈ name.toList := by
  fun_induction nameWishes names with
  | case1 => simp
  | case2 name => simp [Ident.ofType, Ident.text_ofText, mem_typeWord]
  | case3 part rest _ ih => simp [Ident.ofModule, Ident.text_ofText, mem_moduleWord, ih]

theorem count_dots_eq_zero {idents : List Ident} :
    (idents.map fun i => i.text.toList.count '.').sum = 0 ↔ ¬∃ i ∈ idents, '.' ∈ i.text.toList := by
  simp [List.sum_eq_zero_iff, List.count_eq_zero]

/-- The parts of a name give the path of what was granted for the names on the way exactly if
    no name has a dot in it and each was granted what it asks for. -/
theorem pathBelow_eq_iff {path : String} {names : List String} {idents : List Ident}
    (hne : names ≠ []) (h : List.Forall₂ Ident.Yields (nameWishes names) idents) :
    pathBelow path (nameWishes (splitText '.' (".".intercalate names))) = pathBelow path idents ↔
      (∀ name ∈ names, '.' ∉ name.toList) ∧ idents = nameWishes names := by
  by_cases hdots : ∀ name ∈ names, '.' ∉ name.toList
  · rw [splitText_intercalate hne hdots, pathBelow_inj h]
    exact (and_iff_right hdots).symm
  · refine iff_of_false (fun heq => hdots ?_) fun hboth => hdots hboth.1
    -- The parts have no dots, so there are none in what was granted either.
    have hparts : ¬∃ wish ∈ nameWishes (splitText '.' (".".intercalate names)),
        '.' ∈ wish.text.toList := by
      rw [exists_mem_nameWishes]
      rintro ⟨part, hpart, hmem⟩
      exact not_mem_of_mem_splitText hpart hmem
    have hcount := congrArg (·.toList.count '.') heq
    simp only [count_pathBelow (show '.' ≠ ':' by decide), count_dots_eq_zero.2 hparts] at hcount
    have hidents := count_dots_eq_zero.1 (Nat.add_left_cancel hcount).symm
    intro name hname hmem
    obtain ⟨wish, hwish, hdot⟩ := exists_mem_nameWishes.2 ⟨name, hname, hmem⟩
    obtain ⟨i, hi, hyields⟩ := exists_mem_zip_of_forall₂ h hwish
    exact hidents ⟨i, (List.of_mem_zip hi).2, hyields.mem_text hdot⟩

end Protobuf
