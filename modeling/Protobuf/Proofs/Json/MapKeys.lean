import Protobuf.Proofs.Json.Alike
import Protobuf.Proofs.Number.Numeral
import Protobuf.Proofs.Steps

/-! # The keys of maps in JSON

The members of an object have distinct names, and so have the entries of a map distinct keys.  A
key that is an integer has more than one spelling, though, and of two members that spell one key
only the last one becomes an entry.

* `MapKey.SameKey`: the texts that spell one key.
* `MapEntries.ofJson`: an object as a map, whatever its values are.
* `MemberReader.entryList_eq_ofJson`: the map fields of messages are read so.
* `MapEntries.ofJson_keeps`: when no member is lost.
-/

namespace Protobuf

namespace MapKey

variable {k : Scalar} {a b : String} {x y : MapKey}

/-- Two texts that spell one key of a kind: the same text, or two numerals of digits alone that
    are worth the same where keys are integers. -/
def SameKey (k : Scalar) (a b : String) : Prop :=
  a = b ∨ (range? k).isSome ∧ ∃ s s' : Numeral,
    s.IsPlain ∧ s'.IsPlain ∧ s.text = a ∧ s'.text = b ∧ s.value = s'.value

/-- A key that is an integer is spelled by a plain numeral. -/
theorem exists_numeral {low high : ℤ} (hrange : range? k = some (low, high))
    (h : ofText k a = .ok x) :
    ∃ s : Numeral, s.IsPlain ∧ s.text = a ∧ ∃ n : ℤ, s.value = n ∧ x = integer n := by
  unfold ofText at h
  split at h
  · cases hrange
  simp only [hrange] at h
  split at h
  · rename_i n hread
    cases h
    obtain ⟨s, hplain, htext, hvalue, -⟩ := Literal.integerWithin?_eq_some_iff.1 hread
    exact ⟨s, hplain, htext, n, hvalue, rfl⟩
  · cases h

/-- Where keys are no integers, each has one spelling. -/
theorem toText_of_ofText (hrange : range? k = none) (h : ofText k a = .ok x) : x.toText = a := by
  unfold ofText at h
  split at h
  · split at h
    · rename_i htext
      cases h
      exact htext.symm
    · split at h
      · rename_i htext
        cases h
        exact htext.symm
      · cases h
  · simp only [hrange] at h
    cases h
    rfl

/-- Two texts are read as one key exactly if they spell one key. -/
theorem sameKey_iff (ha : ofText k a = .ok x) (hb : ofText k b = .ok y) : SameKey k a b ↔ x = y := by
  constructor
  · rintro (rfl | ⟨hsome, s, s', hs, hs', rfl, rfl, hvalue⟩)
    · rw [ha] at hb
      exact Except.ok.inj hb
    · -- The numerals that were read need not be these two, but the texts say what they are worth.
      obtain ⟨⟨low, high⟩, hrange⟩ := Option.isSome_iff_exists.1 hsome
      obtain ⟨r, -, hr, n, hn, rfl⟩ := exists_numeral hrange ha
      obtain ⟨r', -, hr', n', hn', rfl⟩ := exists_numeral hrange hb
      have hsame : (n : ℚ) = n' := by
        rw [← hn, ← hn', (Numeral.eq_of_text_eq hr).2, (Numeral.eq_of_text_eq hr').2, hvalue]
      rw [Int.cast_inj.1 hsame]
  · rintro rfl
    cases hrange : range? k with
    | none => exact .inl ((toText_of_ofText hrange ha).symm.trans (toText_of_ofText hrange hb))
    | some bounds =>
      obtain ⟨s, hs, hs', n, hn, rfl⟩ := exists_numeral hrange ha
      obtain ⟨r, hr, hr', m, hm, hnm⟩ := exists_numeral hrange hb
      cases hnm
      refine .inr ⟨by simp [hrange], s, r, hs, hr, hs', hr', hn.trans hm.symm⟩

end MapKey

/-! ## Objects as maps -/

namespace MapEntries

variable {β : Type} {key : Scalar} {read : Json → Except DecodeError β}

def entryOfJson (key : Scalar) (read : Json → Except DecodeError β) (member : String × Json) :
    Except DecodeError (MapKey × β) :=
  match MapKey.ofText key member.1 with
  | .error e => .error e
  | .ok k => (read member.2).map (k, ·)

def ofJson (key : Scalar) (read : Json → Except DecodeError β) :
    Json → Except DecodeError (List (MapKey × β))
  | .object members => (readEach (entryOfJson key read) members).map (insertAll · [])
  | _ => .error (.unexpectedJson "object")

theorem key_of_entryOfJson {m : String × Json} {e : MapKey × β}
    (h : entryOfJson key read m = .ok e) : MapKey.ofText key m.1 = .ok e.1 := by
  unfold entryOfJson at h
  split at h
  · cases h
  · rename_i k hk
    obtain ⟨v, -, rfl⟩ := map_eq_ok.1 h
    exact hk

end MapEntries

theorem readEach_eq_mapM {α β : Type} {read : α → Except DecodeError β} (as : List α) :
    readEach read as = as.mapM read := by
  induction as with
  | nil => rfl
  | cons a as ih =>
    rw [readEach, List.mapM_cons, ← ih]
    cases read a with
    | error e => rfl
    | ok b => cases readEach read as <;> rfl

/-- A list is read if each of its items is. -/
theorem readEach_eq_ok_iff {α β : Type} {read : α → Except DecodeError β} {as : List α} {bs : List β} :
    readEach read as = .ok bs ↔ List.Forall₂ (fun a b => read a = .ok b) as bs := by
  rw [readEach_eq_mapM, mapM_eq_ok_iff]

/-- A reading may be followed by a function of what was read. -/
theorem map_readEach {α β γ : Type} {read : α → Except DecodeError β} {f : β → γ} (as : List α) :
    (readEach read as).map (List.map f) = readEach (fun a => (read a).map f) as := by
  induction as with
  | nil => rfl
  | cons a as ih =>
    rw [readEach, readEach, ← ih]
    cases read a with
    | error e => rfl
    | ok b => cases readEach read as <;> rfl

/-! ## Map fields -/

section

variable {Ref : Type} {S : Schema Ref}

def FieldType.valueOfJson (S : Schema Ref) : FieldType Ref → Json → Except DecodeError Value
  | .plain t, v => (t.ofJson v).map (.scalar t.wire)
  | .message r, v =>
    match v.mergeInto S r (S r).default with
    | (.ok (), m) => .ok (.message m)
    | (.error e, _) => .error e

theorem Json.messageEntries_eq_readEach (ms : Members) (key : Scalar) (r : Ref) :
    messageEntries S ms key r =
      readEach (MapEntries.entryOfJson key (FieldType.valueOfJson S (.message r))) ms := by
  induction ms with
  | nil => rfl
  | cons m rest ih =>
    obtain ⟨name, v⟩ := m
    rw [messageEntries, readEach, MapEntries.entryOfJson, FieldType.valueOfJson, ih]
    cases MapKey.ofText key name with
    | error e => rfl
    | ok k =>
      obtain ⟨outcome, m⟩ := v.mergeInto S r (S r).default
      cases outcome <;> rfl

/-- The entries of a map field are read as an object is read as a map. -/
theorem MemberReader.entryList_eq_ofJson {ms : Json.Members} {name : String} {v : Json}
    (value : ms.find? name = some v) (key : Scalar) (t : FieldType Ref) :
    ((ofMembers S ms).entryList name v key t).map (MapEntries.insertAll · []) =
      MapEntries.ofJson key (t.valueOfJson S) v := by
  cases t with
  | plain t =>
    have hentry : ∀ m, (t.entryOfJson key m).map (fun e => (e.1, Value.scalar t.wire e.2)) =
        MapEntries.entryOfJson key (FieldType.valueOfJson S (.plain t)) m := by
      intro m
      rw [PlainType.entryOfJson, MapEntries.entryOfJson, FieldType.valueOfJson]
      cases MapKey.ofText key m.1 with
      | error e => rfl
      | ok k => cases t.ofJson m.2 <;> rfl
    cases v with
    | object members =>
      rw [entryList, PlainType.entriesOfJson, map_readEach, MapEntries.ofJson]
      simp only [hentry]
    | _ => rfl
  | message r =>
    rw [entryList, ofMembers]
    simp only [Json.memberEntries_of_find? value]
    cases v with
    | object members => rw [Json.entries, Json.messageEntries_eq_readEach, MapEntries.ofJson]
    | _ => rfl

end

/-! ## Members and entries -/

section

variable {α β : Type} {R : α → β → Prop} {as : List α} {bs : List β}

/-- What holds of each item of a list holds of its partners. -/
theorem forall_mem_iff_of_forall₂ {P : α → Prop} {Q : β → Prop} (h : List.Forall₂ R as bs)
    (hPQ : ∀ {a b}, R a b → (P a ↔ Q b)) : (∀ a ∈ as, P a) ↔ ∀ b ∈ bs, Q b := by
  induction h with
  | nil => simp
  | cons hab _ ih => rw [List.forall_mem_cons, List.forall_mem_cons, hPQ hab, ih]

/-- What holds between any two items of a list holds between their partners. -/
theorem pairwise_iff_of_forall₂ {P : α → α → Prop} {Q : β → β → Prop} (h : List.Forall₂ R as bs)
    (hPQ : ∀ {a a' b b'}, R a b → R a' b' → (P a a' ↔ Q b b')) : as.Pairwise P ↔ bs.Pairwise Q := by
  induction h with
  | nil => simp
  | cons hab hrest ih =>
    rw [List.pairwise_cons, List.pairwise_cons, ih, forall_mem_iff_of_forall₂ hrest (hPQ hab)]

/-- The items behind which something holds are the partners of those behind which it does. -/
theorem exists_last_iff_of_forall₂ {P : α → α → Prop} {Q : β → β → Prop} {e : β}
    (h : List.Forall₂ R as bs) (hunique : ∀ {a b b'}, R a b → R a b' → b = b')
    (hPQ : ∀ {a a' b'}, R a e → R a' b' → (P a' a ↔ Q b' e)) :
    (∃ before after, bs = before ++ e :: after ∧ ∀ b' ∈ after, Q b' e) ↔
      ∃ a, R a e ∧ ∃ before after, as = before ++ a :: after ∧ ∀ a' ∈ after, P a' a := by
  induction h with
  | nil => simp
  | @cons a b as bs hab hrest ih =>
    have hitem := @exists_append_cons_iff _ b e bs fun after => ∀ b' ∈ after, Q b' e
    have hpartner := fun a' => @exists_append_cons_iff _ a a' as fun after => ∀ x ∈ after, P x a'
    simp only [hitem, hpartner, ih]
    constructor
    · rintro (⟨rfl, hlast⟩ | ⟨a', ha', hlast⟩)
      · exact ⟨a, hab, .inl ⟨rfl, (forall_mem_iff_of_forall₂ hrest (hPQ hab)).2 hlast⟩⟩
      · exact ⟨a', ha', .inr hlast⟩
    · rintro ⟨a', ha', ⟨rfl, hlast⟩ | hlast⟩
      · exact .inl ⟨hunique hab ha', (forall_mem_iff_of_forall₂ hrest (hPQ ha')).1 hlast⟩
      · exact .inr ⟨a', ha', hlast⟩

end

namespace MapEntries

variable {β : Type} {key : Scalar} {read : Json → Except DecodeError β}

theorem exists_of_ofJson {members : Json.Members} {entries : List (MapKey × β)}
    (hread : ofJson key read (.object members) = .ok entries) :
    ∃ new, List.Forall₂ (fun m e => entryOfJson key read m = .ok e) members new ∧
      entries = insertAll new [] := by
  rw [ofJson] at hread
  obtain ⟨new, hnew, rfl⟩ := map_eq_ok.1 hread
  exact ⟨new, readEach_eq_ok_iff.1 hnew, rfl⟩

/-- Members that are read have names that spell one key exactly if they become entries with one
    key. -/
theorem not_sameKey_iff {m m' : String × Json} {e e' : MapKey × β}
    (hm : entryOfJson key read m = .ok e) (hm' : entryOfJson key read m' = .ok e') :
    ¬MapKey.SameKey key m.1 m'.1 ↔ e.1 ≠ e'.1 :=
  not_congr (MapKey.sameKey_iff (key_of_entryOfJson hm) (key_of_entryOfJson hm'))

/-- A map has as many entries as the object has members exactly if no two names spell one key, as
    none do where keys are no integers, and then it is the same in any order of the members.  Of
    the members whose names spell one key the last one becomes an entry. -/
theorem ofJson_keeps {members : Json.Members} {entries : List (MapKey × β)}
    (hdistinct : (members.map (·.1)).Nodup)
    (hread : ofJson key read (.object members) = .ok entries) :
    (entries.length = members.length ↔
        members.Pairwise fun m m' => ¬MapKey.SameKey key m.1 m'.1) ∧
      (MapKey.range? key = none → entries.length = members.length) ∧
      (entries.length = members.length →
        ∀ others : Json.Members, others.Perm members → ofJson key read (.object others) = .ok entries) ∧
      ∀ e, e ∈ entries ↔ ∃ m, entryOfJson key read m = .ok e ∧
        ∃ before after, members = before ++ m :: after ∧
          ∀ m' ∈ after, ¬MapKey.SameKey key m'.1 m.1 := by
  obtain ⟨new, hnew, rfl⟩ := exists_of_ofJson hread
  have hcount : (insertAll new []).length = members.length ↔
      members.Pairwise fun m m' => ¬MapKey.SameKey key m.1 m'.1 := by
    rw [hnew.length_eq, length_insertAll_eq_iff, List.Nodup, List.pairwise_map]
    exact (pairwise_iff_of_forall₂ hnew not_sameKey_iff).symm
  refine ⟨hcount, ?_, ?_, ?_⟩
  · -- Where keys are no integers, names that differ spell different keys.
    intro hrange
    rw [hcount]
    refine (List.pairwise_map.1 hdistinct).imp ?_
    rintro m m' hne (heq | ⟨hsome, -⟩)
    · exact hne heq
    · rw [hrange] at hsome
      cases hsome
  · intro hlength others hperm
    -- The entries are read in another order, but their keys are as distinct.
    obtain ⟨new', hnew', hperm'⟩ := List.perm_comp_forall₂ hperm hnew
    have hnodup := length_insertAll_eq_iff.1 (hlength.trans hnew.length_eq)
    rw [ofJson, readEach_eq_ok_iff.2 hnew', Except.map, insertAll_perm hperm'.symm hnodup]
  · intro e
    have hlast := exists_last_iff_of_forall₂ (e := e) (P := fun m' m => ¬MapKey.SameKey key m'.1 m.1)
      (Q := fun e' e => e'.1 ≠ e.1) hnew (fun h h' => Except.ok.inj (h.symm.trans h'))
      fun h h' => not_sameKey_iff h' h
    rw [mem_insertAll_iff_last List.Pairwise.nil, hlast]
    exact or_iff_left fun h => absurd h.1 List.not_mem_nil

def sizes : Json.Members := [("+8", .number (.integer 20)), ("07", .number (.integer 10))]

theorem ofJson_keeps_sizes :
    (sizes.map (·.1)).Nodup ∧
      ofJson .int32 Scalar.int32OfJson (.object sizes) = .ok [(.integer 7, 10), (.integer 8, 20)] ∧
      ofJson .int32 Scalar.int32OfJson (.object sizes.reverse) =
        .ok [(.integer 7, 10), (.integer 8, 20)] := by
  have hdistinct : (sizes.map (·.1)).Nodup := by decide
  have hread : ofJson .int32 Scalar.int32OfJson (.object sizes) =
      .ok [(.integer 7, 10), (.integer 8, 20)] := rfl
  exact ⟨hdistinct, hread, (ofJson_keeps hdistinct hread).2.2.1 rfl _ (List.reverse_perm sizes)⟩

/-- Two members whose names spell one. -/
def ones : Json.Members := [("+1", .number (.integer 20)), ("1", .number (.integer 10))]

/-- Two members with distinct names make one entry, and their order decides which. -/
theorem ofJson_ones : (ones.map (·.1)).Nodup ∧
    ofJson .int32 Scalar.int32OfJson (.object ones) = .ok [(.integer 1, 10)] ∧
    ofJson .int32 Scalar.int32OfJson (.object ones.reverse) = .ok [(.integer 1, 20)] := by
  refine ⟨?_, ?_, ?_⟩
  · decide
  · rfl
  · rfl

end MapEntries

end Protobuf
