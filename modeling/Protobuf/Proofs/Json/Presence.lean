import Mathlib.Data.List.Dedup
import Mathlib.Data.List.Sort
import Protobuf.Proofs.Binary.Spelling
import Protobuf.Proofs.Json.Slots
import Protobuf.Proofs.Wire.Boundary

/-! # What both formats show

A message has a member in its object for each field that it has records for, and both stand
in the order of the field numbers.  Fields with one JSON name have one member.

* `Message.Shows`, `Message.Agrees`: an object and bytes that show the same fields.
* `Slot.Presence`: a slot is set in both formats or in none.
* `Message.exists_members`: the members of an object that was written.
* `Message.shows`: the object and the bytes of a message show the same fields.
* `Message.Shows.agrees_iff`: they agree if no two of these fields have one JSON name.
-/

namespace Protobuf

variable {Ref : Type}

namespace SlotType

def jsonNames : SlotType Ref → List (Nat × String)
  | implicit f => [(f.number, f.jsonName)]
  | optional f => [(f.number, f.jsonName)]
  | repeated f => [(f.number, f.jsonName)]
  | map _ f => [(f.number, f.jsonName)]
  | oneof _ members => members.map fun f => (f.number, f.jsonName)

theorem map_fst_jsonNames (t : SlotType Ref) : t.jsonNames.map (·.1) = t.numbers := by
  cases t <;> simp [jsonNames, numbers]

theorem map_snd_jsonNames (t : SlotType Ref) : t.jsonNames.map (·.2) = t.names.map (·.1) := by
  cases t <;> simp [jsonNames, names, Field.names]

end SlotType

namespace MessageType

def jsonName? (t : MessageType Ref) (number : Nat) : Option String :=
  ((t.slots.flatMap SlotType.jsonNames).find? (·.1 = number)).map (·.2)

variable {t : MessageType Ref}

theorem Coherent.nodup_jsonNumbers (h : t.Coherent) :
    ((t.slots.flatMap SlotType.jsonNames).map (·.1)).Nodup := by
  simpa only [List.map_flatMap, SlotType.map_fst_jsonNames] using h.distinct

/-- Whether no two fields of a type have one JSON name. -/
def HasDistinctJsonNames (t : MessageType Ref) : Prop :=
  ((t.slots.flatMap SlotType.jsonNames).map (·.2)).Nodup

instance (t : MessageType Ref) : Decidable t.HasDistinctJsonNames :=
  inferInstanceAs (Decidable (List.Nodup _))

theorem ToldApart.hasDistinctJsonNames (h : t.ToldApart) : t.HasDistinctJsonNames := by
  have hnames : ((t.slots.flatMap SlotType.names).map (·.1)).Nodup :=
    List.pairwise_map.2 (h.fields.imp And.left)
  rw [HasDistinctJsonNames]
  simpa only [List.map_flatMap, SlotType.map_snd_jsonNames] using hnames

theorem Coherent.jsonName?_eq (h : t.Coherent) {number : Nat} {name : String}
    (mem : (number, name) ∈ t.slots.flatMap SlotType.jsonNames) :
    t.jsonName? number = some name := by
  have hfind := find?_of_nodup h.nodup_jsonNumbers mem
  rw [jsonName?, hfind]
  rfl

theorem HasDistinctJsonNames.eq_of_jsonName? (h : t.HasDistinctJsonNames) {number number' : Nat}
    {name : String} (hname : t.jsonName? number = some name)
    (hname' : t.jsonName? number' = some name) : number = number' := by
  have declared : ∀ {n}, t.jsonName? n = some name → (n, name) ∈ t.slots.flatMap SlotType.jsonNames := by
    intro n hn
    obtain ⟨p, hfind, rfl⟩ := Option.map_eq_some_iff.1 hn
    have hnumber : p.1 = n := by simpa using List.find?_some hfind
    exact hnumber ▸ List.mem_of_find?_eq_some hfind
  exact congrArg Prod.fst
    (List.inj_on_of_nodup_map h (declared hname) (declared hname') rfl)

end MessageType

def Record.numbers (bytes : Bytes) : Except DecodeError Unit × List Nat :=
  forEach (fun r numbers => (r.skip, numbers ++ [r.number])) bytes []

/-- The object and the bytes of a message show the same fields: the keys are the JSON names of
    the fields that there are records for, in ascending order of their numbers, and each name
    where it comes first.  Both are empty only if each field is at its default. -/
structure Message.Shows (S : Schema Ref) (r : Ref) (m : Message) (j : Json) : Prop where
  keys : ∃ (members : Json.Members) (numbers : List Nat) (names : List String),
    j = .object members ∧ Record.numbers (encode S r m) = (.ok (), numbers) ∧
    numbers.dedup.Pairwise (· < ·) ∧ numbers.dedup.map (S r).jsonName? = names.map some ∧
    members.map (·.1) = names.eraseDups
  empty : j = .object [] ↔ encode S r m = []
  unset : encode S r m = [] ↔ m = (S r).default

/-- The keys of the object of a message are the JSON names of the fields that there are records
    for, in ascending order of their numbers, and both are empty only if each field is at its
    default. -/
structure Message.Agrees (S : Schema Ref) (r : Ref) (m : Message) (j : Json) : Prop where
  keys : ∃ (members : Json.Members) (numbers : List Nat), j = .object members ∧
    Record.numbers (encode S r m) = (.ok (), numbers) ∧ numbers.dedup.Pairwise (· < ·) ∧
    members.map (fun e => some e.1) = numbers.dedup.map (S r).jsonName?
  empty : j = .object [] ↔ encode S r m = []
  unset : encode S r m = [] ↔ m = (S r).default

variable {S : Schema Ref}

/-- A slot is at its default and shows in neither format, or it is not and shows in both. -/
inductive Slot.Presence (S : Schema Ref) (t : SlotType Ref) (s : Slot) : Prop
  | unset (h : s = t.default) (bytes : Slot.emissions S t s = []) (json : Slot.members S t s = [])
  | set {number : Nat} {name : String} {said : Except EncodeFault Json} (h : s ≠ t.default)
      (named : (number, name) ∈ t.jsonNames) (bytes : Slot.emissions S t s ≠ [])
      (same : ∀ e ∈ Slot.emissions S t s, e.record.number = number)
      (json : Slot.members S t s = [(number, name, said)])

theorem Slot.presence {t : SlotType Ref} {s : Slot} (wf : t.Coherent)
    (typed : Slot.HasType S t s) : Slot.Presence S t s := by
  cases typed with
  | implicit f v =>
    by_cases hv : v = f.type.wire.default
    · exact .unset (by rw [hv]; rfl) (if_pos hv) (if_pos hv)
    · refine .set (by simpa [SlotType.default] using hv) List.mem_cons_self ?_ ?_ (if_neg hv)
      · simp [Slot.emissions, hv]
      · simp [Slot.emissions, hv]
  | absent f => exact .unset rfl rfl rfl
  | @present f v h =>
    refine .set (by simp [SlotType.default]) List.mem_cons_self ?_ ?_ rfl
    · simp [Slot.emissions]
    · simp [Slot.emissions]
  | @repeated f vs h =>
    by_cases hvs : vs = []
    · subst hvs
      exact .unset rfl (by simp [Slot.emissions]) rfl
    · refine .set (by simpa [SlotType.default] using hvs) List.mem_cons_self ?_ ?_
        (if_neg (by simpa using hvs))
      · rw [Slot.emissions]
        split <;> simp [hvs]
      · rw [Slot.emissions]
        split <;> simp [hvs, packedEmission]
  | @map key f entries sorted keys values =>
    by_cases hentries : entries = []
    · subst hentries
      exact .unset rfl rfl rfl
    · refine .set (by simpa [SlotType.default] using hentries) List.mem_cons_self ?_ ?_
        (if_neg (by simpa using hentries))
      · simpa [Slot.emissions] using hentries
      · rw [Slot.emissions, List.forall_mem_map]
        exact fun _ _ => rfl
  | unset name members => exact .unset rfl rfl rfl
  | @member name members f v mem h =>
    have hfind := find?_of_nodup wf.distinct mem
    have hjson : Slot.members S (.oneof name members) (.oneof (some (f.number, v))) =
        [(f.number, f.jsonName, v.toJson S f.type)] := by
      simp [Slot.members, hfind]
    refine .set (by simp [SlotType.default]) (List.mem_map_of_mem mem) ?_ ?_ hjson
    · simp [Slot.emissions, hfind]
    · simp [Slot.emissions, hfind]

/-! ## The slots of a message -/

theorem forall_presence {r : Ref} {m : Message} (wf : (S r).Coherent)
    (typed : Message.HasType S r m) : List.Forall₂ (Slot.Presence S) (S r).slots m := by
  rw [List.forall₂_iff_zip]
  exact ⟨typed.length_eq, fun hzip => Slot.presence (wf.slot (List.of_mem_zip hzip).1)
    ((List.forall₂_iff_zip.1 typed).2 hzip)⟩

section

variable {ts : List (SlotType Ref)} {ss : List Slot}

/-- A slot has one member at most, under the number and the name of one of its fields. -/
theorem slotMembers_sublist (h : List.Forall₂ (Slot.Presence S) ts ss) :
    ((slotMembers S ts ss).map fun e => (e.1, e.2.1)).Sublist (ts.flatMap SlotType.jsonNames) := by
  induction h with
  | nil => exact .slnil
  | cons hslot _ ih =>
    rw [slotMembers, List.map_append, List.flatMap_cons]
    refine List.Sublist.append ?_ ih
    cases hslot with
    | unset _ _ json => simp [json]
    | set _ named _ _ json =>
      rw [json]
      exact List.singleton_sublist.2 named

theorem mem_numbers_iff (h : List.Forall₂ (Slot.Presence S) ts ss) (number : Nat) :
    number ∈ (slotMembers S ts ss).map (·.1) ↔
      number ∈ (slotEmissions S ts ss).map (·.record.number) := by
  induction h with
  | nil => exact Iff.rfl
  | @cons t s ts ss hslot _ ih =>
    rw [slotMembers, slotEmissions, List.map_append, List.map_append, List.mem_append,
      List.mem_append, ih]
    refine or_congr_left ?_
    cases hslot with
    | unset _ bytes json => rw [bytes, json]; rfl
    | @set number' name said _ _ bytes same json =>
      -- All records of the slot have the number of its member, and there is one.
      obtain ⟨e, he⟩ := List.exists_mem_of_ne_nil _ bytes
      rw [json, List.mem_map, List.mem_map]
      simp only [List.mem_singleton, exists_eq_left]
      constructor
      · rintro rfl
        exact ⟨e, he, same e he⟩
      · rintro ⟨e, he, rfl⟩
        exact (same e he).symm

theorem slotEmissions_eq_nil_iff (h : List.Forall₂ (Slot.Presence S) ts ss) :
    slotEmissions S ts ss = [] ↔ ss = ts.map SlotType.default := by
  induction h with
  | nil => exact ⟨fun _ => rfl, fun _ => rfl⟩
  | cons hslot _ ih =>
    rw [slotEmissions, List.append_eq_nil_iff, ih, List.map_cons, List.cons.injEq]
    refine and_congr_left fun _ => ?_
    cases hslot with
    | unset h bytes _ => exact iff_of_true bytes h
    | set h _ bytes _ _ => exact iff_of_false bytes h

end

/-! ## On the wire -/

theorem Value.complete_record (t : FieldType Ref) (number : Nat) (v : Value) :
    (v.record S t number).Complete := by
  cases v with
  | scalar k x => exact ⟨_, rfl⟩
  | message slots => cases t <;> exact ⟨_, rfl⟩

theorem Slot.complete_emissions {t : SlotType Ref} {s : Slot} {e : Emission}
    (he : e ∈ Slot.emissions S t s) : e.record.Complete := by
  unfold Slot.emissions at he
  split at he
  · split at he
    · cases he
    · rw [List.mem_singleton.1 he]
      exact Value.complete_record _ _ _
  · rw [List.mem_singleton.1 he]
    exact Value.complete_record _ _ _
  · split at he
    · split at he
      · cases he
      · rw [List.mem_singleton.1 he]
        exact ⟨_, rfl⟩
    · obtain ⟨v, -, rfl⟩ := List.mem_map.1 he
      exact Value.complete_record _ _ _
  · obtain ⟨entry, -, rfl⟩ := List.mem_map.1 he
    exact ⟨_, rfl⟩
  · split at he
    · rw [List.mem_singleton.1 he]
      exact Value.complete_record _ _ _
    · cases he
  · cases he

theorem Record.applyAll_numbers {rs : List Record} (h : ∀ r ∈ rs, r.Complete) (numbers : List Nat) :
    applyAll (fun r numbers => (r.skip, numbers ++ [r.number])) rs numbers =
      (.ok (), numbers ++ rs.map (·.number)) := by
  induction rs generalizing numbers with
  | nil => simp [applyAll]
  | cons r rs ih =>
    obtain ⟨p, hp⟩ := h r List.mem_cons_self
    have hskip : r.skip = .ok () := by rw [skip, hp]
    rw [applyAll, hskip]
    simp only [ih fun r hr => h r (List.mem_cons_of_mem _ hr), List.append_assoc,
      List.singleton_append, List.map_cons]

/-- The numbers in the bytes of a message are those of what it emits. -/
theorem Message.numbers_encode {r : Ref} {m : Message} (wf : (S r).WellFormed)
    (typed : HasType S r m) (fits : (encode S r m).Addressable) :
    Record.numbers (encode S r m) =
      (.ok (), (messageEmissions S r m).map (·.record.number)) := by
  have hcomplete : ∀ rec ∈ (messageEmissions S r m).map (·.record), rec.Complete := by
    rintro rec hrec
    obtain ⟨e, he, rfl⟩ := List.mem_map.1 hrec
    obtain ⟨p, -, hep⟩ := exists_number_mem ((List.mergeSort_perm _ _).mem_iff.1 he)
    exact Slot.complete_emissions hep
  rw [Record.numbers, encode_eq, Record.forEach_flatten _ (spelled_emissions typed wf fits),
    Record.applyAll_numbers hcomplete, List.nil_append, List.map_map]
  rfl

theorem Message.encode_eq_nil_iff {r : Ref} {m : Message} (wf : (S r).WellFormed)
    (typed : HasType S r m) (fits : (encode S r m).Addressable) :
    encode S r m = [] ↔ slotEmissions S (S r).slots m = [] := by
  have hperm : (messageEmissions S r m).Perm (slotEmissions S (S r).slots m) :=
    List.mergeSort_perm _ _
  rw [encode_eq]
  constructor
  · intro h
    have hnone : messageEmissions S r m = [] := by
      refine List.eq_nil_iff_forall_not_mem.2 fun e he => ?_
      -- What is emitted is a record, and no record is empty.
      exact (spelled_emissions typed wf fits e he).ne_nil
        (List.flatten_eq_nil_iff.1 h _ (List.mem_map_of_mem he))
    exact (hnone ▸ hperm).nil_eq.symm
  · intro h
    rw [h] at hperm
    rw [hperm.eq_nil]
    rfl

/-! ## The object -/

theorem exists_written_of_gather {es : List (Nat × (String × Except EncodeFault Json))}
    {acc : Json.Members} {j : Json} (h : gather (es.map (·.2)) acc = .ok j) :
    ∃ ns : List NumberedMember, es = ns.map NumberedMember.written := by
  induction es generalizing acc with
  | nil => exact ⟨[], rfl⟩
  | cons e es ih =>
    obtain ⟨number, key, said⟩ := e
    cases said with
    | error e => cases h
    | ok v =>
      obtain ⟨ns, rfl⟩ := ih h
      exact ⟨(number, key, v) :: ns, rfl⟩

theorem pairwise_byNumber {α : Type} {es : List (Nat × α)} (distinct : (es.map (·.1)).Nodup) :
    ((es.mergeSort fun a b => a.1 ≤ b.1).map (·.1)).Pairwise (· < ·) := by
  have hperm := List.mergeSort_perm es fun a b => a.1 ≤ b.1
  have hnodup := (hperm.map (·.1)).nodup_iff.2 distinct
  have hsorted : (es.mergeSort fun a b => a.1 ≤ b.1).Pairwise fun a b => decide (a.1 ≤ b.1) :=
    List.pairwise_mergeSort (fun a b c hab hbc => by simp only [decide_eq_true_eq] at *; omega)
      (fun a b => by simp only [Bool.or_eq_true, decide_eq_true_eq]; omega) es
  refine (List.pairwise_map.2 (hsorted.imp of_decide_eq_true)).and hnodup |>.imp ?_
  intro a b hab
  exact Nat.lt_of_le_of_ne hab.1 hab.2

/-- What an object that was written was gathered from: the members of the slots, in ascending
    order of their numbers. -/
theorem Message.exists_gathered {r : Ref} {m : Message} {j : Json} (wf : (S r).Coherent)
    (shape : (S r).shape = .object) (slots : List.Forall₂ (Slot.Presence S) (S r).slots m)
    (h : toJson S r m = .ok j) :
    ∃ es : List NumberedMember,
      (slotMembers S (S r).slots m).Perm (es.map NumberedMember.written) ∧
      (es.map (·.1)).Pairwise (· < ·) ∧
      gather ((es.map (·.2)).map fun e => (e.1, .ok e.2)) [] = .ok j := by
  have hnumbers := ((slotMembers_sublist slots).map (·.1)).nodup wf.nodup_jsonNumbers
  rw [List.map_map] at hnumbers
  rw [toJson, shape, shapeJson, byNumber] at h
  have hascending := pairwise_byNumber hnumbers
  have hperm := List.mergeSort_perm (slotMembers S (S r).slots m) fun a b => a.1 ≤ b.1
  -- No failure was among the members.
  obtain ⟨es, hes⟩ := exists_written_of_gather h
  rw [hes] at h hperm hascending
  rw [List.map_map] at h hascending
  exact ⟨es, hperm.symm, hascending, by rw [List.map_map]; exact h⟩

/-- An object that was written has all members of the slots if no two have one name. -/
theorem Message.exists_members {r : Ref} {m : Message} {j : Json} (wf : (S r).Coherent)
    (distinct : (S r).HasDistinctJsonNames) (shape : (S r).shape = .object)
    (slots : List.Forall₂ (Slot.Presence S) (S r).slots m) (h : toJson S r m = .ok j) :
    ∃ es : List NumberedMember,
      (slotMembers S (S r).slots m).Perm (es.map NumberedMember.written) ∧
      j = .object (es.map (·.2)) := by
  obtain ⟨es, hperm, -, hgather⟩ := exists_gathered wf shape slots h
  rw [MessageType.HasDistinctJsonNames] at distinct
  have hnames := ((slotMembers_sublist slots).map (·.2)).nodup distinct
  rw [List.map_map] at hnames
  have hdistinct := (hperm.map (·.2.1)).nodup_iff.1 hnames
  have hkeys : ((([] : Json.Members) ++ es.map (·.2)).map (·.1)).Nodup := by
    rw [List.map_map] at hdistinct
    rw [List.nil_append, List.map_map]
    exact hdistinct
  exact ⟨es, hperm, Except.ok.inj (hgather.symm.trans (gather_eq _ hkeys))⟩

theorem eraseDups_eq_self {α : Type} [DecidableEq α] {l : List α} (h : l.Nodup) :
    l.eraseDups = l := by
  induction l with
  | nil => rfl
  | cons a l ih =>
    obtain ⟨hnew, hrest⟩ := List.nodup_cons.1 h
    have hkeep : l.filter (fun b => !b == a) = l := by
      rw [List.filter_eq_self]
      intro b hb
      simpa using ne_of_mem_of_not_mem hb hnew
    rw [List.eraseDups_cons, hkeep, ih hrest]

theorem nodup_eraseDups {α : Type} [DecidableEq α] (l : List α) : l.eraseDups.Nodup := by
  -- What is left of a list behind its first item is no longer than what stands there.
  induction hn : l.length using Nat.strong_induction_on generalizing l with
  | _ n ih =>
    cases l with
    | nil => exact List.nodup_nil
    | cons a l =>
      have hlength : (l.filter (fun b => !b == a)).length < n := by
        have hle := List.length_filter_le (fun b => !b == a) l
        rw [List.length_cons] at hn
        omega
      rw [List.eraseDups_cons, List.nodup_cons, List.mem_eraseDups]
      exact ⟨by simp, ih _ hlength _ rfl⟩

theorem exists_object_of_gather {es : List (String × Except EncodeFault Json)} {acc : Json.Members}
    {j : Json} (h : gather es acc = .ok j) : ∃ members, j = .object members := by
  induction es generalizing acc with
  | nil =>
    cases h
    exact ⟨acc, rfl⟩
  | cons e es ih =>
    obtain ⟨key, said⟩ := e
    cases said with
    | error e => cases h
    | ok v => exact ih h

/-- Members are gathered under the first of their keys that are the same. -/
theorem keys_of_gather {ms acc got : Json.Members} {names : List String}
    (hacc : acc.map (·.1) = names.eraseDups)
    (h : gather (ms.map fun e => (e.1, .ok e.2)) acc = .ok (.object got)) :
    got.map (·.1) = (names ++ ms.map (·.1)).eraseDups := by
  induction ms generalizing acc names with
  | nil =>
    cases h
    rw [hacc, List.map_nil, List.append_nil]
  | cons e rest ih =>
    have hinsert : (acc.insert e.1 e.2).map (·.1) = (names ++ [e.1]).eraseDups := by
      rw [List.eraseDups_append]
      by_cases hmem : e.1 ∈ names
      · rw [Json.Members.keys_insert_of_mem (by rwa [hacc, List.mem_eraseDups]), hacc]
        simp [List.removeAll, hmem]
      · rw [Json.Members.insert_of_not_mem (by rwa [hacc, List.mem_eraseDups]), List.map_append, hacc]
        simp [List.removeAll, hmem, List.eraseDups_cons]
    rw [List.map_cons, List.append_cons]
    exact ih hinsert h

theorem dedup_eq_of_ascending {ns ms : List Nat} (hns : ns.Pairwise (· ≤ ·))
    (hms : ms.Pairwise (· < ·)) (h : ∀ n, n ∈ ms ↔ n ∈ ns) : ns.dedup = ms := by
  have hdedup : ns.dedup.Pairwise (· < ·) := by
    refine ((hns.sublist (List.dedup_sublist ns)).and ns.nodup_dedup).imp ?_
    intro a b hab
    exact Nat.lt_of_le_of_ne hab.1 hab.2
  exact hdedup.eq_of_mem_iff hms fun n => by rw [List.mem_dedup, h]

theorem Message.pairwise_emissions (r : Ref) (m : Message) :
    ((messageEmissions S r m).map (·.record.number)).Pairwise (· ≤ ·) := by
  refine List.pairwise_map.2 ((List.pairwise_mergeSort Emission.mayPrecede_trans
    Emission.mayPrecede_total (slotEmissions S (S r).slots m)).imp ?_)
  exact of_decide_eq_true

/-- The object and the bytes of a message show the same fields. -/
theorem Message.shows {r : Ref} {m : Message} {j : Json} (wf : (S r).WellFormed)
    (shape : (S r).shape = .object) (typed : HasType S r m) (fits : (encode S r m).Addressable)
    (h : toJson S r m = .ok j) : Shows S r m j := by
  have slots := forall_presence wf.toCoherent typed
  have hnil := encode_eq_nil_iff wf typed fits
  obtain ⟨es, hperm, hascending, hgather⟩ := exists_gathered wf.toCoherent shape slots h
  obtain ⟨members, rfl⟩ := exists_object_of_gather hgather
  have hemitted : (messageEmissions S r m).Perm (slotEmissions S (S r).slots m) :=
    List.mergeSort_perm _ _
  have hmem : ∀ n, n ∈ es.map (·.1) ↔ n ∈ (slotEmissions S (S r).slots m).map (·.record.number) := by
    intro n
    rw [← mem_numbers_iff slots, (hperm.map _).mem_iff, List.map_map]
    rfl
  have hempty : es.map (·.1) = [] ↔
      (slotEmissions S (S r).slots m).map (·.record.number) = [] := by
    rw [List.eq_nil_iff_forall_not_mem, List.eq_nil_iff_forall_not_mem]
    exact forall_congr' fun n => not_congr (hmem n)
  rw [List.map_eq_nil_iff, List.map_eq_nil_iff] at hempty
  have hdedup := dedup_eq_of_ascending (pairwise_emissions r m) hascending
    fun n => by rw [hmem, (hemitted.map _).mem_iff]
  have hnames : ∀ e ∈ es, (S r).jsonName? e.1 = some e.2.1 := by
    intro e he
    apply wf.jsonName?_eq
    have hwritten := hperm.mem_iff.2 (List.mem_map_of_mem he)
    exact (slotMembers_sublist slots).subset (List.mem_map_of_mem hwritten)
  have hkeys : members.map (·.1) = ((es.map (·.2)).map (·.1)).eraseDups :=
    @keys_of_gather _ [] _ [] rfl hgather
  refine ⟨⟨members, _, es.map (·.2.1), rfl, numbers_encode wf typed fits, ?_, ?_, ?_⟩, ?_, ?_⟩
  · rw [hdedup]
    exact hascending
  · rw [hdedup, List.map_map, List.map_map]
    exact List.map_congr_left hnames
  · rw [hkeys, List.map_map]
    rfl
  · have hnone : members = [] ↔ es = [] := by
      rw [← List.map_eq_nil_iff (f := (·.1)), hkeys]
      cases es <;> simp [List.eraseDups_cons]
    rw [hnil, Json.object.injEq, hnone, hempty]
  · exact hnil.trans (slotEmissions_eq_nil_iff slots)

/-- They agree exactly if no two of the fields that are shown have one JSON name. -/
theorem Message.Shows.agrees_iff {r : Ref} {m : Message} {j : Json} (h : Shows S r m j) :
    Agrees S r m j ↔ ∀ numbers, Record.numbers (encode S r m) = (.ok (), numbers) →
      (numbers.dedup.map (S r).jsonName?).Nodup := by
  obtain ⟨⟨members, numbers, names, rfl, hnumbers, hascending, hnames, hkeys⟩, hempty, hunset⟩ := h
  have hdistinct : (numbers.dedup.map (S r).jsonName?).Nodup ↔ names.Nodup := by
    rw [hnames]
    exact List.nodup_map_iff (Option.some_injective _)
  constructor
  · rintro ⟨⟨members', numbers', hobject, hnumbers', -, hkeys'⟩, -, -⟩ numbers'' hnumbers''
    cases hobject
    cases hnumbers.symm.trans hnumbers'
    cases hnumbers.symm.trans hnumbers''
    have hsome : (members.map (·.1)).map some = names.map some := by
      rw [List.map_map, ← hnames]
      exact hkeys'
    have hsame := List.map_injective_iff.2 (Option.some_injective _) hsome
    rw [hdistinct, ← hsame, hkeys]
    exact nodup_eraseDups names
  · intro h
    have hkeep := eraseDups_eq_self (hdistinct.1 (h numbers hnumbers))
    refine ⟨⟨members, numbers, rfl, hnumbers, hascending, ?_⟩, hempty, hunset⟩
    rw [hnames, ← hkeep, ← hkeys, List.map_map]
    rfl

/-- They agree if no two fields of the type have one JSON name. -/
theorem Message.Shows.agrees {r : Ref} {m : Message} {j : Json} (h : Shows S r m j)
    (distinct : (S r).HasDistinctJsonNames) : Agrees S r m j := by
  refine h.agrees_iff.2 fun numbers hnumbers => ?_
  obtain ⟨-, numbers', names, -, hnumbers', -, hnames, -⟩ := h.keys
  cases hnumbers.symm.trans hnumbers'
  refine (List.nodup_dedup numbers).map_on fun n hn n' _ heq => ?_
  -- Each record is for a field, which has a name.
  have hnamed : (S r).jsonName? n ∈ names.map some := hnames ▸ List.mem_map_of_mem hn
  obtain ⟨name, -, hname⟩ := List.mem_map.1 hnamed
  exact distinct.eq_of_jsonName? hname.symm (heq ▸ hname.symm)

end Protobuf
