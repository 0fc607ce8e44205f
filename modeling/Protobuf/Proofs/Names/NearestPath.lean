import Protobuf.Proofs.Names.PathsBelow

/-! # The nearest path

The settings have paths for some names.  Of those that a type lies at or under, the longest
one tells where the type is found: under its path, by the remaining parts of the name.  A name
is cut at its dots only, so that `.shop` says nothing about `.shopping.Cart`.

* `Covers`, `IsNearest`: the names that a type lies at or under, and the longest of them.
* `covers_iff`: these are the names whose parts are the first parts of the type's name.
* `externPath?_nearest`: where a type is found.
-/

namespace Protobuf

structure Covers (paths : List (String × String)) (typeName name : String) : Prop where
  listed : name ∈ paths.map (·.1)
  nonempty : name ≠ ""
  above : name = typeName ∨ ∃ rest, typeName = name ++ "." ++ rest

/-- The longest of the names that a type lies at or under. -/
structure IsNearest (paths : List (String × String)) (typeName name : String) : Prop where
  covers : Covers paths typeName name
  longest : ∀ other, Covers paths typeName other → other.length ≤ name.length

section

variable {paths : List (String × String)} {typeName name path : String} {segments : List String}

/-! ## Names and their parts -/

theorem splitText_take (typeName : String) {count : Nat} (pos : 0 < count) :
    splitText '.' (".".intercalate ((splitText '.' typeName).take count)) =
      (splitText '.' typeName).take count := by
  refine splitText_intercalate ?_ fun part hpart =>
    not_mem_of_mem_splitText (List.mem_of_mem_take hpart)
  rw [ne_eq, List.take_eq_nil_iff, not_or]
  exact ⟨by omega, splitText_ne_nil _⟩

/-- A type lies at or under a name just if the parts of the name are its first parts. -/
theorem above_iff : (name = typeName ∨ ∃ rest, typeName = name ++ "." ++ rest) ↔
    splitText '.' name <+: splitText '.' typeName := by
  constructor
  · rintro (rfl | ⟨rest, rfl⟩)
    · exact List.prefix_rfl
    · rw [splitText_append]
      exact List.prefix_append ..
  · rintro ⟨rest, hrest⟩
    have hname := intercalate_splitText typeName
    rw [← hrest] at hname
    rcases eq_or_ne rest [] with rfl | hne
    · rw [List.append_nil, intercalate_splitText] at hname
      exact .inl hname
    · rw [String.intercalate_append_of_ne_nil (splitText_ne_nil _) hne, intercalate_splitText] at hname
      exact .inr ⟨_, hname.symm⟩

theorem covers_iff : Covers paths typeName name ↔
    name ∈ paths.map (·.1) ∧ name ≠ "" ∧ splitText '.' name <+: splitText '.' typeName := by
  rw [← above_iff]
  exact ⟨fun h => ⟨h.listed, h.nonempty, h.above⟩, fun ⟨h, h', h''⟩ => ⟨h, h', h''⟩⟩

/-- The path of what lies below a package, part by part. -/
theorem belowPath_concat (path : String) (parents : List String) (last : String) :
    belowPath path (parents ++ [last]) =
      path ++ String.join (parents.map fun part => "::" ++ moduleWord part) ++ "::" ++
        typeWord last := by
  induction parents generalizing path with
  | nil => simp [belowPath]
  | cons part parents ih =>
    obtain ⟨next, more, hcons⟩ := List.exists_cons_of_ne_nil
      (List.append_ne_nil_of_right_ne_nil parents (List.cons_ne_nil last []))
    rw [List.cons_append, hcons, belowPath, ← hcons, ih]
    · simp [String.join_cons, String.append_assoc]
    · simp

/-- Two names that a type lies at or under are the same if they are of one length. -/
theorem Covers.eq_of_length {other : String} (h : Covers paths typeName name)
    (h' : Covers paths typeName other) (hlength : name.length = other.length) : name = other := by
  have hdot : ".".length = 1 := rfl
  rcases List.prefix_or_prefix_of_prefix (covers_iff.1 h).2.2 (covers_iff.1 h').2.2 with hp | hp
  · obtain heq | ⟨rest, rfl⟩ := above_iff.2 hp
    · exact heq
    · simp only [String.length_append, hdot] at hlength
      omega
  · obtain heq | ⟨rest, rfl⟩ := above_iff.2 hp
    · exact heq.symm
    · simp only [String.length_append, hdot] at hlength
      omega

/-- If a type lies at or under a name at all, one such name is the longest. -/
theorem Covers.exists_nearest (h : Covers paths typeName name) :
    ∃! nearest, IsNearest paths typeName nearest := by
  classical
  let names := (paths.map (·.1)).toFinset.filter (Covers paths typeName)
  have hmem : ∀ other, other ∈ names ↔ Covers paths typeName other := by
    intro other
    rw [Finset.mem_filter, List.mem_toFinset]
    exact and_iff_right_of_imp (·.listed)
  obtain ⟨nearest, hnearest, longest⟩ :=
    names.exists_max_image (·.length) ⟨name, (hmem name).2 h⟩
  have hcovers := (hmem nearest).1 hnearest
  refine ⟨nearest, ⟨hcovers, fun other hother => longest other ((hmem other).2 hother)⟩, ?_⟩
  intro other hother
  refine hother.covers.eq_of_length hcovers (le_antisymm ?_ (hother.longest _ hcovers))
  exact longest other ((hmem other).2 hother.covers)

/-! ## Where a type is found -/

/-- A type is found below the path of the longest name, by the parts that are left. -/
theorem IsNearest.externPath? (h : IsNearest paths typeName name)
    (hpath : entryOf? name paths = some path) {rest : List String}
    (hrest : splitText '.' name ++ rest = splitText '.' typeName) :
    externPath? paths typeName = some (belowPath path rest) := by
  have hlongest : ∀ count, 0 < count → count ≤ rest.length →
      ".".intercalate (splitText '.' name ++ rest.take count) ∉ paths.map (·.1) := by
    intro count pos le hlisted
    -- Otherwise that name would cover the type, too, and be longer.
    have hne : rest.take count ≠ [] := by
      rw [ne_eq, List.take_eq_nil_iff, ← List.length_eq_zero_iff]
      omega
    have hlonger : ".".intercalate (splitText '.' name ++ rest.take count) =
        name ++ "." ++ ".".intercalate (rest.take count) := by
      rw [String.intercalate_append_of_ne_nil (splitText_ne_nil _) hne, intercalate_splitText]
    have hparts : splitText '.' name ++ rest.take count <+: splitText '.' typeName := by
      rw [← hrest]
      exact (List.prefix_append_right_inj _).2 (List.take_prefix ..)
    have hcovers : Covers paths typeName (".".intercalate (splitText '.' name ++ rest.take count)) := by
      refine covers_iff.2 ⟨hlisted, ?_, ?_⟩
      · rw [hlonger]
        exact append_dot_ne_empty _ _
      · rwa [splitText_intercalate (List.append_ne_nil_of_left_ne_nil (splitText_ne_nil _) _)]
        exact fun part hpart => not_mem_of_mem_splitText (hparts.mem hpart)
    have hle := h.longest _ hcovers
    have hdot : ".".length = 1 := rfl
    simp only [hlonger, String.length_append, hdot] at hle
    omega
  rw [externPath?_eq, ← hrest, List.length_append]
  exact externPathWithin_eq_some (splitText_ne_nil _) (intercalate_splitText _) h.covers.nonempty
    hpath le_rfl hlongest

/-- No path is found just if the settings have no name that the type lies at or under. -/
theorem externPath?_eq_none_iff :
    externPath? paths typeName = none ↔ ∀ name, ¬Covers paths typeName name := by
  constructor
  · intro hnone name h
    obtain ⟨nearest, hnearest, -⟩ := h.exists_nearest
    obtain ⟨path, hpath⟩ :=
      Option.isSome_iff_exists.1 (isSome_entryOf?_iff.2 hnearest.covers.listed)
    obtain ⟨rest, hrest⟩ := (covers_iff.1 hnearest.covers).2.2
    rw [hnearest.externPath? hpath hrest] at hnone
    cases hnone
  · intro h
    refine externPathWithin_eq_none fun count pos _ hne hlisted => h _ (covers_iff.2 ⟨hlisted, hne, ?_⟩)
    rw [splitText_take typeName pos]
    exact List.take_prefix ..

/-- Names that a type does not lie at or under make no difference to where it is found. -/
theorem externPath?_filter (paths : List (String × String)) (typeName : String) :
    externPath? (paths.filter fun e => (splitText '.' e.1).isPrefixOf (splitText '.' typeName))
      typeName = externPath? paths typeName := by
  rw [externPath?_eq, externPath?_eq]
  generalize (splitText '.' typeName).length = front
  induction front with
  | zero => rfl
  | succ front ih =>
    have habove : ∀ e : String × String,
        (splitText '.' e.1).isPrefixOf (splitText '.' typeName) = true ∧
          decide (e.1 = ".".intercalate ((splitText '.' typeName).take (front + 1))) = true ↔
          e.1 = ".".intercalate ((splitText '.' typeName).take (front + 1)) := by
      intro e
      rw [decide_eq_true_eq]
      refine and_iff_right_of_imp fun he => ?_
      rw [he, splitText_take typeName (by omega), List.isPrefixOf_iff_prefix]
      exact List.take_prefix ..
    simp only [externPathWithin, ih, List.find?_filter, habove]

end

/-- A type is found through the longest name of the settings that it lies at or under, and only
    through one: at the path of that name, or below it by the parts of the name that are left. -/
theorem externPath?_nearest (paths : List (String × String)) (typeName : String) :
    (externPath? paths typeName = none ↔ ∀ name, ¬Covers paths typeName name) ∧
      ((∃ name, Covers paths typeName name) → ∃! name, IsNearest paths typeName name) ∧
      (∀ name path, IsNearest paths typeName name → entryOf? name paths = some path →
        (name = typeName → externPath? paths typeName = some path) ∧
          ∀ rest, typeName = name ++ "." ++ rest →
            ∃ parents last, splitText '.' rest = parents ++ [last] ∧
              externPath? paths typeName = some (path ++
                String.join (parents.map fun part => "::" ++ moduleWord part) ++
                  "::" ++ typeWord last)) ∧
      externPath? (paths.filter fun e => (splitText '.' e.1).isPrefixOf (splitText '.' typeName))
        typeName = externPath? paths typeName := by
  refine ⟨externPath?_eq_none_iff, fun ⟨_, h⟩ => h.exists_nearest, ?_, externPath?_filter _ _⟩
  intro name path hnearest hpath
  constructor
  · rintro rfl
    exact hnearest.externPath? hpath (List.append_nil _)
  · rintro rest rfl
    refine ⟨(splitText '.' rest).dropLast, (splitText '.' rest).getLast (splitText_ne_nil _),
      (List.dropLast_append_getLast _).symm, ?_⟩
    rw [← belowPath_concat, List.dropLast_append_getLast]
    exact hnearest.externPath? hpath (splitText_append _ _).symm

/-- The step of a tier of a price is found below the path of prices, and what is in a moneybag is
    not found through `.money`. -/
theorem externPath?_nearest_price :
    IsNearest [(".money", "::money"), (".money.Price", "::prices")] ".money.Price.Tier.Step"
        ".money.Price" ∧
      externPath? [(".money", "::money"), (".money.Price", "::prices")] ".money.Price.Tier.Step" =
        some "::prices::tier::Step" ∧
      externPath? [(".money", "::money"), (".money.Price", "::prices")] ".moneybag.Coin" = none := by
  obtain ⟨-, -, hfound, -⟩ :=
    externPath?_nearest [(".money", "::money"), (".money.Price", "::prices")] ".money.Price.Tier.Step"
  have hnearest : IsNearest [(".money", "::money"), (".money.Price", "::prices")]
      ".money.Price.Tier.Step" ".money.Price" := by
    refine ⟨⟨by decide, by decide, .inr ⟨"Tier.Step", by decide⟩⟩, fun other hother => ?_⟩
    have hlisted : other = ".money" ∨ other = ".money.Price" := by simpa using hother.listed
    rcases hlisted with rfl | rfl <;> decide
  refine ⟨hnearest, ?_, ?_⟩
  · obtain ⟨parents, last, hparts, hpath⟩ :=
      (hfound ".money.Price" "::prices" hnearest (by decide)).2 "Tier.Step" (by decide)
    have hsplit : splitText '.' "Tier.Step" = ["Tier"] ++ ["Step"] := by decide +kernel
    obtain ⟨rfl, hlast⟩ := List.append_inj' (hparts.symm.trans hsplit) rfl
    rw [List.singleton_inj.1 hlast] at hpath
    exact hpath.trans (by decide +kernel)
  · refine (externPath?_nearest _ ".moneybag.Coin").1.2 fun name hname => ?_
    have hlisted : name = ".money" ∨ name = ".money.Price" := by simpa using hname.listed
    have hparts := (covers_iff.1 hname).2.2
    rcases hlisted with rfl | rfl <;> revert hparts <;> decide +kernel

end Protobuf
