import Mathlib.Data.List.Forall2
import Protobuf.Proofs.Json.Exact
import Protobuf.Proofs.Json.Members

/-! # Values in JSON

What a JSON value means as a value of some type, and what arrays and objects mean whose
items and members mean something.

* `Json.Means`: a JSON value from which a value is read.
* `PlainType.means_toJson`: what was written of a plain value means it.
* `MemberReader.fresh_eq`, `MemberReader.list_eq`, `MemberReader.entryList_eq`: what is
  read of one value, of an array and of an object.
* `elementsJson_eq`, `entriesJson_eq`: what is written of a list and of a map.
-/

namespace Protobuf

variable {Ref : Type} {S : Schema Ref}

/-- A JSON value, not `null`, from which a value of a type is read. -/
inductive Json.Means (S : Schema Ref) : Json → FieldType Ref → Value → Prop
  | plain {j : Json} {t : PlainType} {x : t.wire.Carrier} (present : j.isNull = false)
      (h : t.ofJson j = .ok x) : Json.Means S j (.plain t) (.scalar t.wire x)
  | message {j : Json} {r : Ref} {m : Message} (present : j.isNull = false)
      (h : j.mergeInto S r (S r).default = (.ok (), m)) : Json.Means S j (.message r) (.message m)

theorem Json.Means.present {j : Json} {t : FieldType Ref} {v : Value} (h : j.Means S t v) :
    j.isNull = false := by
  cases h with
  | plain present _ => exact present
  | message present _ => exact present

/-! ## Plain values -/

namespace PlainType

variable {t : PlainType}

theorem valueToJson_self (t : PlainType) (x : t.wire.Carrier) : t.valueToJson t.wire x = t.toJson x := by
  unfold valueToJson
  exact dif_pos rfl

theorem isNull_toJson (t : PlainType) (x : t.wire.Carrier) : (t.toJson x).isNull = false := by
  cases t with
  | scalar k => exact k.isNull_toJson x
  | enumeration e => exact e.isNull_toJson x

theorem ofJson_toJson (distinct : t.hasDistinctNames) {x : t.wire.Carrier} (h : t.wire.Exact x) :
    t.ofJson (t.toJson x) = .ok x := by
  cases t with
  | scalar k => exact Scalar.ofJson_toJson h
  | enumeration e => exact EnumType.ofJson_toJson (of_decide_eq_true distinct) x

theorem means_toJson (distinct : t.hasDistinctNames) {x : t.wire.Carrier} (h : t.wire.Exact x) :
    (t.toJson x).Means S (.plain t) (.scalar t.wire x) :=
  .plain (t.isNull_toJson x) (ofJson_toJson distinct h)

end PlainType

/-! ## Lists -/

abbrev Json.MeanEach (S : Schema Ref) (items : List Json) (t : FieldType Ref) (vs : List Value) : Prop :=
  List.Forall₂ (fun j v => Json.Means S j t v) items vs

theorem readEach_ofJson {items : List Json} {t : PlainType} {vs : List Value}
    (h : Json.MeanEach S items (.plain t) vs) :
    ∃ xs, readEach t.ofJson items = .ok xs ∧ xs.map (.scalar t.wire) = vs := by
  induction h with
  | nil => exact ⟨[], rfl, rfl⟩
  | @cons j v items vs hmeans _ ih =>
    obtain ⟨xs, hread, hvs⟩ := ih
    cases hmeans with
    | @plain _ x _ hj =>
      refine ⟨x :: xs, ?_, by rw [List.map_cons, hvs]⟩
      rw [readEach, hj]
      simp only [hread, Except.map]

theorem messages_eq {items : List Json} {r : Ref} {vs : List Value}
    (h : Json.MeanEach S items (.message r) vs) : Json.messages S items r = .ok vs := by
  induction h with
  | nil => rfl
  | @cons j v items vs hmeans _ ih =>
    cases hmeans with
    | message _ hj =>
      rw [Json.messages, hj, ih]
      rfl

theorem elementsJson_eq {t : FieldType Ref} {vs : List Value}
    (h : ∀ v ∈ vs, ∃ j, v.toJson S t = .ok j ∧ j.Means S t v) :
    ∃ items, elementsJson S t vs = .ok items ∧ Json.MeanEach S items t vs := by
  induction vs with
  | nil => exact ⟨[], rfl, .nil⟩
  | cons v rest ih =>
    obtain ⟨j, hj, hmeans⟩ := h v List.mem_cons_self
    obtain ⟨items, hitems, heach⟩ := ih fun w hw => h w (List.mem_cons_of_mem _ hw)
    refine ⟨j :: items, ?_, .cons hmeans heach⟩
    rw [elementsJson, hj]
    simp only [hitems, Except.map]

/-! ## Maps -/

abbrev Json.MeanEntries (S : Schema Ref) (ms : Json.Members) (key : Scalar) (t : FieldType Ref)
    (entries : List (MapKey × Value)) : Prop :=
  List.Forall₂ (fun m e => MapKey.ofText key m.1 = .ok e.1 ∧ Json.Means S m.2 t e.2) ms entries

theorem readEach_entryOfJson {ms : Json.Members} {key : Scalar} {t : PlainType}
    {entries : List (MapKey × Value)} (h : Json.MeanEntries S ms key (.plain t) entries) :
    ∃ es, readEach (t.entryOfJson key) ms = .ok es ∧
      (es.map fun e => (e.1, Value.scalar t.wire e.2)) = entries := by
  induction h with
  | nil => exact ⟨[], rfl, rfl⟩
  | @cons m e ms entries hone _ ih =>
    obtain ⟨es, hread, hes⟩ := ih
    obtain ⟨k, v⟩ := e
    obtain ⟨hkey, hmeans⟩ := hone
    cases hmeans with
    | @plain _ x _ hj =>
      refine ⟨(k, x) :: es, ?_, by rw [List.map_cons, hes]⟩
      have hentry : t.entryOfJson key m = .ok (k, x) := by
        rw [PlainType.entryOfJson, hkey]
        simp only [hj, Except.map]
      rw [readEach, hentry]
      simp only [hread, Except.map]

theorem messageEntries_eq {ms : Json.Members} {key : Scalar} {r : Ref}
    {entries : List (MapKey × Value)} (h : Json.MeanEntries S ms key (.message r) entries) :
    Json.messageEntries S ms key r = .ok entries := by
  induction h with
  | nil => rfl
  | @cons m e ms entries hone _ ih =>
    obtain ⟨k, v⟩ := e
    obtain ⟨hkey, hmeans⟩ := hone
    cases hmeans with
    | message _ hj =>
      rw [Json.messageEntries, hkey, hj, ih]
      rfl

/-- Entries whose keys are distinct and whose values are written one by one are written as
    an object. -/
theorem entriesJson_eq {t : FieldType Ref} {key : Scalar} (hkey : key.isKey)
    {entries : List (MapKey × Value)} (keys : ∀ e ∈ entries, e.1.HasKind key)
    (h : ∀ e ∈ entries, ∃ j, e.2.toJson S t = .ok j ∧ j.Means S t e.2) {acc : Json.Members}
    (distinct : (acc.map (·.1) ++ entries.map (·.1.toText)).Nodup) :
    ∃ ms, entriesJson S t entries acc = .ok (acc ++ ms) ∧ Json.MeanEntries S ms key t entries := by
  induction entries generalizing acc with
  | nil => exact ⟨[], by rw [List.append_nil]; rfl, .nil⟩
  | cons e rest ih =>
    obtain ⟨k, v⟩ := e
    obtain ⟨j, hj, hmeans⟩ := h (k, v) List.mem_cons_self
    have hnew : k.toText ∉ acc.map (·.1) := fun hmem =>
      (List.nodup_append.1 distinct).2.2 _ hmem _ List.mem_cons_self rfl
    -- The induction is over the members that were written so far as well.
    have hrest : ((acc ++ [(k.toText, j)]).map (·.1) ++ rest.map (·.1.toText)).Nodup := by
      simpa using distinct
    obtain ⟨ms, hms, heach⟩ := ih (fun e he => keys e (List.mem_cons_of_mem _ he))
      (fun e he => h e (List.mem_cons_of_mem _ he)) hrest
    have hread := MapKey.ofText_toText hkey (keys (k, v) List.mem_cons_self)
    refine ⟨(k.toText, j) :: ms, ?_, .cons ⟨hread, hmeans⟩ heach⟩
    have hsplit : acc ++ (k.toText, j) :: ms = acc ++ [(k.toText, j)] ++ ms := by simp
    rw [entriesJson, hj, hsplit, ← hms, ← Json.Members.insert_of_not_mem hnew]

theorem nodup_toText {key : Scalar} (hkey : key.isKey) {entries : List (MapKey × Value)}
    (sorted : MapEntries.Sorted entries) (keys : ∀ e ∈ entries, e.1.HasKind key) :
    (entries.map (·.1.toText)).Nodup := by
  rw [List.Nodup, List.pairwise_map]
  -- Two keys with one text would be one key, which does not come before itself.
  refine List.Pairwise.imp_of_mem ?_ sorted
  intro a b ha hb hbefore htext
  have hsame := MapKey.toText_injective hkey (keys a ha) (keys b hb) htext
  rw [hsame, MapKey.not_precedes_self] at hbefore
  cases hbefore

/-! ## Reading a member -/

/-- What the members of an object say about messages. -/
def MemberReader.ofMembers (S : Schema Ref) (ms : Json.Members) : MemberReader Ref where
  merge := Json.mergeMember S ms
  elements := Json.memberElements S ms
  entries := Json.memberEntries S ms

namespace MemberReader

variable {ms : Json.Members} {key : String}

theorem fresh_eq {j : Json} {t : FieldType Ref} {v : Value} (hfind : ms.find? key = some j)
    (h : j.Means S t v) : fresh S (ofMembers S ms) key j t = .ok v := by
  cases h with
  | plain _ hj => simp only [fresh, hj, Except.map]
  | message _ hj => simp only [fresh, ofMembers, Json.mergeMember_of_find? hfind, hj]

theorem list_eq {items : List Json} {t : FieldType Ref} {vs : List Value}
    (hfind : ms.find? key = some (.array items)) (h : Json.MeanEach S items t vs) :
    list (ofMembers S ms) key (.array items) t = .ok vs := by
  cases t with
  | plain t =>
    obtain ⟨xs, hread, hvs⟩ := readEach_ofJson h
    simp only [list, PlainType.listOfJson, hread, Except.map, hvs]
  | message r => simp only [list, ofMembers, Json.memberElements_of_find? hfind, Json.elements,
      messages_eq h]

theorem entryList_eq {members : Json.Members} {mapKey : Scalar} {t : FieldType Ref}
    {entries : List (MapKey × Value)} (hfind : ms.find? key = some (.object members))
    (h : Json.MeanEntries S members mapKey t entries) :
    entryList (ofMembers S ms) key (.object members) mapKey t = .ok entries := by
  cases t with
  | plain t =>
    obtain ⟨es, hread, hes⟩ := readEach_entryOfJson h
    simp only [entryList, PlainType.entriesOfJson, hread, Except.map, hes]
  | message r => simp only [entryList, ofMembers, Json.memberEntries_of_find? hfind, Json.entries,
      messageEntries_eq h]

end MemberReader

end Protobuf
