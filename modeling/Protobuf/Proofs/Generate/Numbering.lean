import Protobuf.Proofs.Generate.Places

/-! # Numbers used twice

A message is named unless two of its fields have one number, whichever of them are members of
a oneof and of which one.  Once it is named, each number is that of one struct field or of one
variant, and the places of its model stand in the order of their numbers.

* `messageNames_error`: the number that is reported is used twice.
* `MessageDescriptor.RefersTo`, `perm_fields`: the oneof of a field, and all fields group by group.
* `messageNames_numbering`: when a message is named, and how its fields are numbered then.
-/

namespace Protobuf

def FieldDescriptor.IsComplete (f : FieldDescriptor) : Prop := f.name.isSome ∧ f.number.isSome

theorem FieldDescriptor.IsComplete.nameAndNumber {f : FieldDescriptor} (h : f.IsComplete) :
    ∃ name n, f.number = some n ∧ f.nameAndNumber = .ok (name, n) := by
  obtain ⟨hname, hnumber⟩ := h
  obtain ⟨name, hname⟩ := Option.isSome_iff_exists.1 hname
  obtain ⟨n, hnumber⟩ := Option.isSome_iff_exists.1 hnumber
  refine ⟨name, n, hnumber, ?_⟩
  rw [FieldDescriptor.nameAndNumber, hname, hnumber]
  rfl

section

variable {message : String} {e : GenerateError}

/-- The error that names a number of a message, which is listed twice. -/
def Reports (message : String) (numbers : List (Option Int32)) (e : GenerateError) : Prop :=
  ∃ n, e = .duplicateFieldNumber message n ∧ 2 ≤ numbers.count (some n)

theorem Reports.mono {numbers more : List (Option Int32)} (h : Reports message numbers e)
    (hsub : numbers.Sublist more) : Reports message more e := by
  obtain ⟨n, rfl, hcount⟩ := h
  exact ⟨n, rfl, hcount.trans (hsub.count_le _)⟩

/-- A number that is listed and comes once more is listed twice. -/
theorem reports_of_mem {numbers : List (Option Int32)} {n : Int32} (h : some n ∈ numbers) :
    Reports message (numbers ++ [some n]) (.duplicateFieldNumber message n) := by
  refine ⟨n, rfl, ?_⟩
  rw [List.count_append, List.count_singleton_self]
  exact Nat.succ_le_succ (List.count_pos_iff.2 h)

theorem map_number_sublist {done rest : List FieldDescriptor} {f : FieldDescriptor} :
    (done.map (·.number) ++ [f.number]).Sublist ((done ++ f :: rest).map (·.number)) := by
  rw [List.map_append, List.map_cons]
  exact (List.singleton_sublist.2 List.mem_cons_self).append_left _

theorem mem_of_isSome_entryOf? {named : List (Int32 × Ident)} {n : Int32}
    (h : (entryOf? n named).isSome) : some n ∈ named.map fun e => some e.1 := by
  obtain ⟨entry, hentry, rfl⟩ := List.mem_map.1 (isSome_entryOf?_iff.1 h)
  exact List.mem_map_of_mem (f := fun e => some e.1) hentry

theorem nameFields_error {fields : List FieldDescriptor} (complete : ∀ f ∈ fields, f.IsComplete)
    (h : nameFields message fields = .error e) : Reports message (fields.map (·.number)) e := by
  obtain ⟨done, f, rest, ⟨named, scope⟩, rfl, hdone, hstep⟩ := foldlM_error h
  obtain ⟨name, n, hnumber, hf⟩ := (complete f (by simp)).nameAndNumber
  simp only [hf, bind, Except.bind] at hstep
  split at hstep
  · rename_i hused
    cases hstep
    have hmem : some n ∈ done.map (·.number) :=
      (nameFields_ok hdone).numbers ▸ mem_of_isSome_entryOf? hused
    exact (reports_of_mem hmem).mono (hnumber ▸ map_number_sublist)
  · cases hstep

/-- The number of a member is looked for among the fields and among the members before it. -/
theorem nameVariants_error {fields : List (Int32 × Ident)} {members : List FieldDescriptor}
    (complete : ∀ f ∈ members, f.IsComplete) (h : nameVariants message fields members = .error e) :
    Reports message (fields.map (fun e => some e.1) ++ members.map (·.number)) e := by
  obtain hfold | ⟨_, -, h⟩ := bind_eq_error.1 h
  · obtain ⟨done, f, rest, ⟨variants, scope⟩, rfl, hdone, hstep⟩ := foldlM_error hfold
    obtain ⟨name, n, hnumber, hf⟩ := (complete f (by simp)).nameAndNumber
    have hvariants : nameVariants message fields done = .ok variants :=
      bind_eq_ok.2 ⟨_, hdone, rfl⟩
    obtain ⟨variantScope, hnamed⟩ := nameVariants_ok hvariants
    simp only [hf, bind, Except.bind] at hstep
    split at hstep
    · rename_i hused
      cases hstep
      have hmem : some n ∈ fields.map (fun e => some e.1) ++ done.map (·.number) := by
        rw [Bool.or_eq_true] at hused
        exact List.mem_append.2 (hused.imp mem_of_isSome_entryOf? fun hused =>
          hnamed.numbers ▸ mem_of_isSome_entryOf? hused)
      refine (reports_of_mem hmem).mono ?_
      rw [List.append_assoc]
      exact (hnumber ▸ map_number_sublist).append_left _
    · cases hstep
  · cases h

theorem nameOneofs_error {fields : List (Int32 × Ident)} {struct module : Scope}
    {groups : List OneofGroup} (named : ∀ g ∈ groups, g.oneof.name.isSome)
    (complete : ∀ g ∈ groups, ∀ f ∈ g.members, f.IsComplete)
    (h : nameOneofs message fields struct module groups = .error e) :
    Reports message
      (fields.map (fun e => some e.1) ++ (groups.flatMap (·.members)).map (·.number)) e := by
  obtain hfold | ⟨_, -, h⟩ := bind_eq_error.1 h
  · obtain ⟨done, g, rest, ⟨oneofs, struct', module'⟩, rfl, -, hstep⟩ := foldlM_error hfold
    have hg : g ∈ done ++ g :: rest := by simp
    obtain ⟨name, hname⟩ := Option.isSome_iff_exists.1 (named g hg)
    obtain hrequired | ⟨_, -, hstep⟩ := bind_eq_error.1 hstep
    · simp only [hname, required] at hrequired
      cases hrequired
    obtain hvariants | ⟨_, -, hstep⟩ := bind_eq_error.1 hstep
    · have hsub := (List.singleton_sublist.2 hg).flatMap (·.members)
      rw [List.flatMap_singleton] at hsub
      exact (nameVariants_error (complete g hg) hvariants).mono ((hsub.map _).append_left _)
    · cases hstep
  · cases h

/-- The number that was seen before is in the list once more. -/
theorem repeatedNumber?_eq_some {numbers seen : List Int32} {n : Int32}
    (h : repeatedNumber? seen numbers = some n) : 2 ≤ (seen ++ numbers).count n := by
  induction numbers generalizing seen with
  | nil => cases h
  | cons k numbers ih =>
    unfold repeatedNumber? at h
    split at h
    · rename_i hseen
      cases h
      have hpos := List.count_pos_iff.2 (List.contains_iff_mem.1 hseen)
      rw [List.count_append, List.count_cons_self]
      omega
    · have hcount := ih h
      rwa [List.perm_middle.count_eq n]

/-- If all names and numbers are there, a message that is not named has a number that two of
    the fields looked at share. -/
theorem messageNames_error {m : MessageDescriptor} {idents : MessageIdents} {module : Scope}
    (complete : ∀ f ∈ m.fields, f.IsComplete) (named : ∀ o ∈ m.oneofs, o.name.isSome)
    (h : messageNames m idents module = .error e) :
    Reports (m.name.getD "") ((m.fields.filter (!·.isOneofMember) ++
      m.oneofGroups.flatMap (·.members)).map (·.number)) e := by
  have hplain : ∀ f ∈ m.fields.filter (!·.isOneofMember), f.IsComplete := fun f hf =>
    complete f (List.mem_of_mem_filter hf)
  have hgroups : ∀ g ∈ m.oneofGroups, ∀ f ∈ g.members, f.IsComplete := fun g hg f hf =>
    complete f ((mem_members_iff hg).1 hf).1
  rw [List.map_append]
  obtain hfields | ⟨⟨fields, struct⟩, hfields, h⟩ := bind_eq_error.1 h
  · exact (nameFields_error hplain hfields).mono (List.sublist_append_left ..)
  rw [← (nameFields_ok hfields).numbers]
  obtain honeofs | ⟨oneofs, honeofs, h⟩ := bind_eq_error.1 h
  · exact nameOneofs_error (fun g hg => named _ (oneof_mem_of_mem_oneofGroups hg)) hgroups honeofs
  simp only at h
  split at h
  · rename_i n hrepeated
    cases h
    have hcount := repeatedNumber?_eq_some hrepeated
    refine Reports.mono ⟨n, rfl, ?_⟩ (List.sublist_append_right ..)
    rw [← map_some_variants (nameOneofs_ok honeofs).2.2,
      List.count_map_of_injective _ _ (Option.some_injective _),
      ← (sortedNumbers_perm oneofs).count_eq]
    exact hcount
  · cases h

end

/-! ## The fields group by group -/

/-- The oneof that a field is a member of is one that the message declares.  Positions are told
    apart by their last 32 bits. -/
def MessageDescriptor.RefersTo (m : MessageDescriptor) (f : FieldDescriptor) : Prop :=
  ∃! i, i < m.oneofs.length ∧ f.oneofIndex = some (Int32.ofNat i)

/-- One of the elements of a list is such if exactly one is and none is listed twice. -/
theorem countP_eq_one {α : Type} {p : α → Bool} {as : List α} (nodup : as.Nodup)
    (h : ∃! a, a ∈ as ∧ p a) : as.countP p = 1 := by
  obtain ⟨a, ha, hunique⟩ := h
  have honly : (as.filter p).Perm [a] := by
    refine (List.perm_ext_iff_of_nodup (nodup.filter _) (List.nodup_singleton a)).2 fun b => ?_
    rw [List.mem_filter, List.mem_singleton]
    exact ⟨hunique b, fun hb => hb ▸ ha⟩
  rw [List.countP_eq_length_filter, honly.length_eq, List.length_singleton]

theorem count_filter_eq {α : Type} [DecidableEq α] (keep : α → Bool) (as : List α) (a : α) :
    (as.filter keep).count a = if keep a then as.count a else 0 := by
  split
  · rename_i h
    exact List.count_filter h
  · rename_i h
    exact List.count_eq_zero.2 fun hmem => h (List.mem_filter.1 hmem).2

/-- What is kept for exactly one of some keys is all there, key by key. -/
theorem perm_filter_flatMap {α κ : Type} [DecidableEq α] {plain : α → Bool} {keep : κ → α → Bool}
    {keys : List κ} {as : List α}
    (h : ∀ a ∈ as, keys.countP (keep · a) = if plain a then 0 else 1) :
    (as.filter plain ++ keys.flatMap fun k => as.filter (keep k)).Perm as := by
  rw [List.perm_iff_count]
  intro a
  have hkeys : (keys.flatMap fun k => as.filter (keep k)).count a =
      keys.countP (keep · a) * as.count a := by
    rw [List.count_flatMap]
    clear h
    induction keys with
    | nil => simp
    | cons k keys ih =>
      rw [List.map_cons, List.sum_cons, ih, Function.comp_apply, count_filter_eq, List.countP_cons]
      split <;> simp only [Nat.add_mul, Nat.one_mul, Nat.zero_mul, Nat.add_comm]
  rw [List.count_append, hkeys, count_filter_eq]
  by_cases ha : a ∈ as
  · rw [h a ha]
    split <;> simp
  · rw [List.count_eq_zero.2 ha]
    simp

theorem flatMap_filter_isEmpty {α β : Type} (f : α → List β) (as : List α) :
    (as.filter fun a => !(f a).isEmpty).flatMap f = as.flatMap f := by
  induction as with
  | nil => rfl
  | cons a as ih =>
    rw [List.filter_cons, List.flatMap_cons]
    split
    · rw [List.flatMap_cons, ih]
    · rename_i hempty
      have hnil : f a = [] := by simpa using hempty
      rw [ih, hnil, List.nil_append]

section

variable {m : MessageDescriptor}

theorem flatMap_oneofGroups (m : MessageDescriptor) :
    m.oneofGroups.flatMap (·.members) = (List.range m.oneofs.length).flatMap fun i =>
      m.fields.filter fun f => f.isOneofMember && f.oneofIndex = some (Int32.ofNat i) := by
  rw [MessageDescriptor.oneofGroups, flatMap_filter_isEmpty, List.flatMap_map, List.range_eq_range',
    ← List.zipIdx_map_snd 0 m.oneofs, List.flatMap_map]

/-- The fields outside the oneofs and the members of these are all fields. -/
theorem MessageDescriptor.perm_fields
    (refers : ∀ f ∈ m.fields, f.isOneofMember → m.RefersTo f) :
    (m.fields.filter (!·.isOneofMember) ++ m.oneofGroups.flatMap (·.members)).Perm m.fields := by
  rw [flatMap_oneofGroups]
  refine perm_filter_flatMap fun f hf => ?_
  cases hmember : f.isOneofMember with
  | false => simp
  | true =>
    refine countP_eq_one List.nodup_range ?_
    simp only [List.mem_range, Bool.true_and, decide_eq_true_eq]
    exact refers f hf hmember

theorem MessageDescriptor.hasPlace_of_refersTo {f : FieldDescriptor}
    (h : f.isOneofMember → m.RefersTo f) : m.hasPlace f := by
  simp only [MessageDescriptor.hasPlace, Bool.or_eq_true, List.any_eq_true, List.mem_range,
    decide_eq_true_eq]
  cases hmember : f.isOneofMember with
  | false => exact .inl rfl
  | true => exact .inr (h hmember).exists

/-- A field refers to exactly one oneof if it refers to any: positions are alike in their last
    32 bits only if they are further apart than a message has oneofs. -/
theorem MessageDescriptor.refersTo_iff {f : FieldDescriptor} (few : m.oneofs.length ≤ 2 ^ 32)
    (hmember : f.isOneofMember) : m.RefersTo f ↔ m.hasPlace f := by
  refine ⟨fun h => hasPlace_of_refersTo fun _ => h, fun hplace => ?_⟩
  simp only [MessageDescriptor.hasPlace, hmember, Bool.not_true, Bool.false_or, List.any_eq_true,
    List.mem_range, decide_eq_true_eq] at hplace
  obtain ⟨i, hi, hindex⟩ := hplace
  refine ⟨i, ⟨hi, hindex⟩, ?_⟩
  rintro j ⟨hj, hindex'⟩
  have hsame : Int32.ofNat j = Int32.ofNat i := Option.some.inj (hindex'.symm.trans hindex)
  have hmod : j % 2 ^ 32 = i % 2 ^ 32 := congrArg (·.toBitVec.toNat) hsame
  omega

end

/-! ## Keys and places -/

def MessageNames.maps (names : MessageNames) : List (List (Int32 × Ident)) :=
  names.fields :: names.oneofs.map (·.2.variants)

theorem countP_isSome_entryOf? {maps : List (List (Int32 × Ident))} {n : Int32}
    (nodup : (maps.flatMap (·.map (·.1))).Nodup) (h : n ∈ maps.flatMap (·.map (·.1))) :
    maps.countP (fun entries => (entryOf? n entries).isSome) = 1 := by
  induction maps with
  | nil => cases h
  | cons entries maps ih =>
    rw [List.flatMap_cons] at nodup h
    obtain ⟨-, hrest, hdisjoint⟩ := List.nodup_append'.1 nodup
    rw [List.countP_cons]
    by_cases hn : n ∈ entries.map (·.1)
    · -- No other map has the key.
      have hnone : maps.countP (fun entries => (entryOf? n entries).isSome) = 0 := by
        refine List.countP_eq_zero.2 fun other hother hsome => ?_
        exact hdisjoint hn (List.mem_flatMap.2 ⟨other, hother, isSome_entryOf?_iff.1 hsome⟩)
      rw [hnone, if_pos (isSome_entryOf?_iff.2 hn)]
    · rw [ih hrest ((List.mem_append.1 h).resolve_left hn), if_neg (mt isSome_entryOf?_iff.1 hn)]

theorem MessageModel.pairwise_places (model : MessageModel) :
    model.places.Pairwise fun p q => p.number ≤ q.number := by
  have htrans : ∀ p q r : FieldPlace,
      decide (p.number ≤ q.number) → decide (q.number ≤ r.number) → decide (p.number ≤ r.number) := by
    simp only [decide_eq_true_eq, UInt32.le_iff_toNat_le]
    exact fun _ _ _ => Nat.le_trans
  have htotal : ∀ p q : FieldPlace, decide (p.number ≤ q.number) || decide (q.number ≤ p.number) := by
    simp only [Bool.or_eq_true, decide_eq_true_eq, UInt32.le_iff_toNat_le]
    exact fun p q => Nat.le_total ..
  exact (List.pairwise_mergeSort htrans htotal _).imp of_decide_eq_true

/-- The places of a model that keeps some fields are in strictly ascending order. -/
theorem MessageModel.Keeps.ascending {t : NameTable} {model : MessageModel} {m : MessageDescriptor}
    {fields : List FieldDescriptor} (h : model.Keeps t m fields) :
    (model.places.map (·.number)).Pairwise (· < ·) := by
  refine List.pairwise_map.2 ((model.pairwise_places.and (List.pairwise_map.1 h.numbers)).imp ?_)
  rintro p q ⟨hle, hne⟩
  rw [UInt32.le_iff_toNat_le] at hle
  rw [ne_eq, ← UInt32.toNat_inj] at hne
  rw [UInt32.lt_iff_toNat_lt]
  omega

/-! ## Numbers used twice -/

/-- If the fields of a message are complete, then naming it fails just if two of them have one
    number, and what is reported then is a number that is used twice.  Otherwise each number is a
    key of one map, and a model has a place for each field, their numbers strictly ascending. -/
theorem messageNames_numbering {m : MessageDescriptor} {idents : MessageIdents} {module : Scope}
    (complete : ∀ f ∈ m.fields, f.IsComplete) (named : ∀ o ∈ m.oneofs, o.name.isSome)
    (refers : ∀ f ∈ m.fields, f.isOneofMember → m.RefersTo f) :
    ((∃ n, messageNames m idents module = .error (.duplicateFieldNumber (m.name.getD "") n)) ↔
        ¬(m.fields.map (·.number)).Nodup) ∧
      (∀ e, messageNames m idents module = .error e →
        Reports (m.name.getD "") (m.fields.map (·.number)) e) ∧
      ∀ names, messageNames m idents module = .ok names →
        (∀ f ∈ m.fields, ∀ n, f.number = some n →
          names.maps.countP (fun entries => (entryOf? n entries).isSome) = 1) ∧
        ∀ ctx : MessageContext, ∀ model,
          entryOf? ctx.typeName ctx.table.messages = some names → ctx.messageModel m = .ok model →
            model.Keeps ctx.table m m.fields ∧ (model.places.map (·.number)).Pairwise (· < ·) := by
  have hperm := (MessageDescriptor.perm_fields refers).map (·.number)
  have herror : ∀ e, messageNames m idents module = .error e →
      Reports (m.name.getD "") (m.fields.map (·.number)) e := by
    intro e h
    obtain ⟨n, rfl, hcount⟩ := messageNames_error complete named h
    exact ⟨n, rfl, hperm.count_eq (some n) ▸ hcount⟩
  have hok : ∀ names, messageNames m idents module = .ok names →
      (names.numbers.map some).Perm (m.fields.map (·.number)) := by
    intro names h
    rw [(messageNames_ok h).2.1.numbers_eq]
    exact hperm
  refine ⟨⟨?_, fun hdup => ?_⟩, herror, fun names h => ⟨fun f hf n hn => ?_, ?_⟩⟩
  · rintro ⟨n, h⟩ hnodup
    obtain ⟨k, -, hcount⟩ := herror _ h
    have hle := List.nodup_iff_count_le_one.1 hnodup (some k)
    omega
  · cases h : messageNames m idents module with
    | error e =>
      obtain ⟨n, rfl, -⟩ := herror e h
      exact ⟨n, rfl⟩
    | ok names =>
      have hnodup := (messageNames_numbers h).map (Option.some_injective _)
      exact absurd ((hok names h).nodup_iff.1 hnodup) hdup
  · have hmaps : names.maps.flatMap (·.map (·.1)) = names.numbers := by
      rw [MessageNames.maps, List.flatMap_cons, List.flatMap_map]
      rfl
    refine countP_isSome_entryOf? (hmaps ▸ messageNames_numbers h) (hmaps ▸ ?_)
    have hmem := (hok names h).mem_iff.2 (List.mem_map_of_mem hf)
    rw [hn] at hmem
    simpa using hmem
  · intro ctx model hnames hmodel
    have hkeeps := MessageContext.messageModel_keeps hnames h hmodel
    refine ⟨?_, hkeeps.ascending⟩
    rwa [List.filter_eq_self.2 fun f hf => MessageDescriptor.hasPlace_of_refersTo (refers f hf)]
      at hkeeps

def pinnedHat (front back : Int32) : MessageDescriptor :=
  { name := some "Hat"
    fields :=
      [ { NameTable.boolField "pin" front with oneofIndex := some 1 },
        { NameTable.boolField "feather" back with oneofIndex := some 0 } ]
    oneofs := [{ name := some "back" }, { name := some "front" }] }

def pinnedHatIdents : MessageIdents := ⟨⟨"Hat", false⟩, ⟨"HatPartial", false⟩, ⟨"hat", false⟩⟩

def pinnedHatContext (names : MessageNames) : MessageContext where
  table := { messages := [(".Hat", names)] }
  file := {}
  typeName := ".Hat"
  module := []
  path := []

theorem pinnedHat_complete (front back : Int32) :
    (∀ f ∈ (pinnedHat front back).fields, f.IsComplete) ∧
      (∀ o ∈ (pinnedHat front back).oneofs, o.name.isSome) ∧
      ∀ f ∈ (pinnedHat front back).fields, f.isOneofMember → (pinnedHat front back).RefersTo f := by
  have hplace : ∀ f ∈ (pinnedHat front back).fields, (pinnedHat front back).hasPlace f := by
    simp only [pinnedHat, List.forall_mem_cons]
    exact ⟨by rfl, by rfl, by simp⟩
  refine ⟨?_, by simp [pinnedHat], fun f hf hmember => ?_⟩
  · simp [pinnedHat, FieldDescriptor.IsComplete, NameTable.boolField]
  · exact (MessageDescriptor.refersTo_iff (by simp [pinnedHat]) hmember).2 (hplace f hf)

/-- Two oneofs cannot both have a member with the number 2.  With the numbers 2 and 1 the message
    is named, and its model has both fields in the order of their numbers. -/
theorem messageNames_numbering_pinnedHat :
    (∃ n, messageNames (pinnedHat 2 2) pinnedHatIdents {} =
      .error (.duplicateFieldNumber "Hat" n)) ∧
    ∃ ctx : MessageContext, ∃ model, ctx.messageModel (pinnedHat 2 1) = .ok model ∧
      model.Keeps ctx.table (pinnedHat 2 1) (pinnedHat 2 1).fields ∧
      (model.places.map (·.number)).Pairwise (· < ·) := by
  constructor
  · obtain ⟨complete, named, refers⟩ := pinnedHat_complete 2 2
    exact (messageNames_numbering complete named refers).1.2 (by decide)
  · obtain ⟨complete, named, refers⟩ := pinnedHat_complete 2 1
    have hok : (messageNames (pinnedHat 2 1) pinnedHatIdents {} >>= fun names =>
        (pinnedHatContext names).messageModel (pinnedHat 2 1)).isOk = true := by decide +kernel
    obtain ⟨model, hmodel⟩ := exists_of_isOk hok
    obtain ⟨names, hnames, hmodel⟩ := bind_eq_ok.1 hmodel
    obtain ⟨-, -, hnumbered⟩ := messageNames_numbering complete named refers
    have hentry : entryOf? ".Hat" [(".Hat", names)] = some names := by simp [entryOf?]
    exact ⟨pinnedHatContext names, model, hmodel, (hnumbered names hnames).2 _ model hentry hmodel⟩

end Protobuf
