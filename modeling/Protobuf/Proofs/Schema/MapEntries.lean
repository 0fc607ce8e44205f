import Mathlib.Data.List.Dedup
import Mathlib.Data.List.Nodup
import Protobuf.Json.MapKey

/-! # The entries of a map

A map holds its entries in the order of their keys and each key once.  Setting keys
keeps it so, and building a map from its own entries gives it back.

* `MapKey.precedes_trans`, `MapKey.precedes_of_not`: the order of keys is strict and total.
* `MapKey.HasKind`: the keys that a map field may hold.
* `MapEntries.Sorted`, `sorted_insert`: what setting a key keeps.
* `insertAll_of_sorted`: entries that stand behind all others are appended.
* `mem_insertAll_iff`: of two entries with one key the new one stays.
* `Sorted.eq_of_mem_iff`: a map is determined by its entries.
-/

namespace Protobuf

theorem charsPrecede_self (as : List Char) : charsPrecede as as = false := by
  induction as with
  | nil => rfl
  | cons a as ih => simp [charsPrecede, ih]

theorem charsPrecede_trans {as bs cs : List Char} (hab : charsPrecede as bs)
    (hbc : charsPrecede bs cs) : charsPrecede as cs := by
  induction as generalizing bs cs with
  | nil =>
    cases cs with
    | nil => cases bs <;> cases hbc
    | cons c cs => rfl
  | cons a as ih =>
    cases bs with
    | nil => cases hab
    | cons b bs =>
      cases cs with
      | nil => cases hbc
      | cons c cs =>
        simp only [charsPrecede, Bool.or_eq_true, Bool.and_eq_true, decide_eq_true_eq,
          beq_iff_eq] at hab hbc ⊢
        rcases hab with hab | ⟨rfl, hab⟩
        · rcases hbc with hbc | ⟨rfl, hbc⟩
          · exact .inl (Nat.lt_trans hab hbc)
          · exact .inl hab
        · rcases hbc with hbc | ⟨rfl, hbc⟩
          · exact .inl hbc
          · exact .inr ⟨rfl, ih hab hbc⟩

theorem charsPrecede_of_not {as bs : List Char} (hne : as ≠ bs) (h : charsPrecede as bs = false) :
    charsPrecede bs as := by
  induction as generalizing bs with
  | nil =>
    cases bs with
    | nil => exact absurd rfl hne
    | cons b bs => cases h
  | cons a as ih =>
    cases bs with
    | nil => rfl
    | cons b bs =>
      simp only [charsPrecede, Bool.or_eq_true, Bool.and_eq_true, decide_eq_true_eq, beq_iff_eq,
        Bool.or_eq_false_iff, Bool.and_eq_false_iff, decide_eq_false_iff_not] at h ⊢
      by_cases hab : a = b
      · subst hab
        have htail := h.2.resolve_left (by simp)
        exact .inr ⟨rfl, ih (fun heq => hne (heq ▸ rfl)) htail⟩
      · have hnat : a.toNat ≠ b.toNat := fun heq => hab (Char.toNat_inj.1 heq)
        exact .inl (by omega)

namespace MapKey

theorem not_precedes_self (k : MapKey) : k.precedes k = false := by
  cases k <;> simp [precedes, charsPrecede_self]

theorem precedes_trans {a b c : MapKey} (hab : a.precedes b) (hbc : b.precedes c) :
    a.precedes c := by
  cases a <;> cases b <;> cases c <;> simp_all [precedes]
  case integer => omega
  case text => exact charsPrecede_trans hab hbc

theorem precedes_of_not {a b : MapKey} (hne : a ≠ b) (h : ¬a.precedes b) : b.precedes a := by
  cases a <;> cases b <;> simp_all [precedes]
  case integer => omega
  case boolean a b => cases a <;> cases b <;> simp_all
  case text a b => exact charsPrecede_of_not (fun heq => hne (String.toList_inj.1 heq)) h

/-! ## Keys of a kind -/

def HasKind (k : Scalar) (key : MapKey) : Prop := ∃ v : k.Carrier, ofScalar k v = key

end MapKey

def Scalar.isKey : Scalar → Bool
  | .double | .float | .bytes => false
  | _ => true

theorem MapKey.toScalar_ofScalar {k : Scalar} (hk : k.isKey) (v : k.Carrier) :
    toScalar k (ofScalar k v) = v := by
  cases k with
  | double | float | bytes => simp [Scalar.isKey] at hk
  | int32 | sint32 | sfixed32 => exact Int32.ofInt_toInt v
  | int64 | sint64 | sfixed64 => exact Int64.ofInt_toInt v
  | uint32 | fixed32 => exact UInt32.ofNat_toNat
  | uint64 | fixed64 => exact UInt64.ofNat_toNat
  | bool | string => rfl

theorem MapKey.ofScalar_toScalar {k : Scalar} (hk : k.isKey) {key : MapKey} (h : key.HasKind k) :
    ofScalar k (toScalar k key) = key := by
  obtain ⟨v, rfl⟩ := h
  rw [toScalar_ofScalar hk]

/-! ## Sorted entries -/

/-- An item of a list with what follows it is the first one with the rest, or one further on. -/
theorem exists_append_cons_iff {α : Type} {a b : α} {as : List α} {P : List α → Prop} :
    (∃ before after, a :: as = before ++ b :: after ∧ P after) ↔
      (a = b ∧ P as) ∨ ∃ before after, as = before ++ b :: after ∧ P after := by
  constructor
  · rintro ⟨before, after, heq, hafter⟩
    cases before with
    | nil =>
      cases heq
      exact .inl ⟨rfl, hafter⟩
    | cons first before =>
      cases heq
      exact .inr ⟨before, after, rfl, hafter⟩
  · rintro (⟨rfl, hafter⟩ | ⟨before, after, rfl, hafter⟩)
    · exact ⟨[], as, rfl, hafter⟩
    · exact ⟨a :: before, after, rfl, hafter⟩

namespace MapEntries

variable {β : Type}

def Sorted (entries : List (MapKey × β)) : Prop :=
  entries.Pairwise fun a b => a.1.precedes b.1

theorem mem_insert {key : MapKey} {value : β} {entries : List (MapKey × β)} {e : MapKey × β}
    (h : e ∈ insert key value entries) : e = (key, value) ∨ e ∈ entries := by
  induction entries with
  | nil => exact .inl (by simpa [insert] using h)
  | cons e' rest ih =>
    obtain ⟨k, v⟩ := e'
    rw [insert] at h
    split at h
    · exact (List.mem_cons.1 h).imp_right (List.mem_cons_of_mem _)
    · split at h
      · exact List.mem_cons.1 h
      · rcases List.mem_cons.1 h with rfl | h
        · exact .inr (by simp)
        · exact (ih h).imp_right (List.mem_cons_of_mem _)

/-- Setting a key keeps the entries in order. -/
theorem sorted_insert (key : MapKey) (value : β) {entries : List (MapKey × β)}
    (h : Sorted entries) : Sorted (insert key value entries) := by
  induction entries with
  | nil => simp [insert, Sorted]
  | cons e rest ih =>
    obtain ⟨k, v⟩ := e
    obtain ⟨hfirst, hrest⟩ := List.pairwise_cons.1 h
    rw [insert]
    split
    · rename_i heq
      exact List.pairwise_cons.2 ⟨fun e he => heq ▸ hfirst e he, hrest⟩
    · rename_i hne
      split
      · rename_i hbefore
        refine List.pairwise_cons.2 ⟨fun e he => ?_, h⟩
        rcases List.mem_cons.1 he with rfl | he
        · exact hbefore
        · exact MapKey.precedes_trans hbefore (hfirst e he)
      · -- The key is neither the first one nor in front of it, so it goes behind it.
        rename_i hafter
        refine List.pairwise_cons.2 ⟨fun e he => ?_, ih hrest⟩
        rcases mem_insert he with rfl | he
        · exact MapKey.precedes_of_not hne hafter
        · exact hfirst e he

theorem sorted_insertAll (new : List (MapKey × β)) {old : List (MapKey × β)} (h : Sorted old) :
    Sorted (insertAll new old) := by
  induction new generalizing old with
  | nil => exact h
  | cons e new ih => exact ih (sorted_insert e.1 e.2 h)

theorem insert_of_last {key : MapKey} {value : β} {entries : List (MapKey × β)}
    (h : ∀ e ∈ entries, e.1.precedes key) : insert key value entries = entries ++ [(key, value)] := by
  induction entries with
  | nil => rfl
  | cons e rest ih =>
    obtain ⟨k, v⟩ := e
    have hk : k.precedes key := h (k, v) (by simp)
    have hne : key ≠ k := by
      rintro rfl
      simp [MapKey.not_precedes_self] at hk
    have hnot : ¬key.precedes k := fun hback => by
      have := MapKey.precedes_trans hk hback
      simp [MapKey.not_precedes_self] at this
    rw [insert, if_neg hne, if_neg hnot, ih fun e he => h e (by simp [he])]
    rfl

/-- Entries that stand behind all others are appended as they are. -/
theorem insertAll_of_sorted {new old : List (MapKey × β)} (h : Sorted (old ++ new)) :
    insertAll new old = old ++ new := by
  -- Every new entry stands behind all that are there, those that were new before it included.
  induction new generalizing old with
  | nil => simp [insertAll]
  | cons e new ih =>
    have hlast : ∀ e' ∈ old, e'.1.precedes e.1 := fun e' he' =>
      (List.pairwise_append.1 h).2.2 e' he' e (by simp)
    show insertAll new (insert e.1 e.2 old) = _
    rw [insert_of_last hlast, ih (by simpa using h)]
    simp

/-! ## The entries that stay -/

theorem Sorted.nodup_keys {entries : List (MapKey × β)} (h : Sorted entries) :
    (entries.map (·.1)).Nodup := by
  rw [List.Nodup, List.pairwise_map]
  refine List.Pairwise.imp ?_ h
  intro a b hbefore heq
  rw [heq, MapKey.not_precedes_self] at hbefore
  cases hbefore

theorem mem_insert_iff {key : MapKey} {value : β} {entries : List (MapKey × β)} (h : Sorted entries)
    {e : MapKey × β} :
    e ∈ insert key value entries ↔ e = (key, value) ∨ (e ∈ entries ∧ e.1 ≠ key) := by
  induction entries with
  | nil => simp [insert]
  | cons first rest ih =>
    obtain ⟨k, v⟩ := first
    obtain ⟨hfirst, hrest⟩ := List.pairwise_cons.1 h
    rw [insert]
    split
    · -- The first entry has the key, and by the order no other one has.
      rename_i heq
      subst heq
      have hothers : ∀ e ∈ rest, e.1 ≠ key := fun e he hkey => by
        have hafter := hfirst e he
        rw [hkey, MapKey.not_precedes_self] at hafter
        cases hafter
      grind
    · rename_i hne
      split
      · -- The key stands before all others.
        rename_i hbefore
        have hothers : ∀ e ∈ rest, e.1 ≠ key := fun e he hkey => by
          have hafter := MapKey.precedes_trans hbefore (hfirst e he)
          rw [hkey, MapKey.not_precedes_self] at hafter
          cases hafter
        grind
      · rw [List.mem_cons, ih hrest]
        grind

/-- Of two entries with one key the new one stays. -/
theorem mem_insertAll_iff {new old : List (MapKey × β)} (hnew : (new.map (·.1)).Nodup)
    (hold : Sorted old) {e : MapKey × β} :
    e ∈ insertAll new old ↔ e ∈ new ∨ (e ∈ old ∧ e.1 ∉ new.map (·.1)) := by
  induction new generalizing old with
  | nil => simp [insertAll]
  | cons first new ih =>
    rw [List.map_cons, List.nodup_cons] at hnew
    have hrest := ih hnew.2 (sorted_insert first.1 first.2 hold)
    rw [mem_insert_iff hold] at hrest
    show e ∈ insertAll new (insert first.1 first.2 old) ↔ _
    rw [hrest]
    grind

/-- A map is determined by its entries. -/
theorem Sorted.eq_of_mem_iff {as bs : List (MapKey × β)} (ha : Sorted as) (hb : Sorted bs)
    (h : ∀ e, e ∈ as ↔ e ∈ bs) : as = bs := by
  have hperm : as.Perm bs :=
    (List.perm_ext_iff_of_nodup (.of_map _ ha.nodup_keys) (.of_map _ hb.nodup_keys)).2 h
  -- Two entries cannot stand before each other.
  refine hperm.eq_of_pairwise (fun a b _ _ hab hba => ?_) ha hb
  have hself := MapKey.precedes_trans hab hba
  rw [MapKey.not_precedes_self] at hself
  cases hself

/-- Of the entries with one key the last one stays. -/
theorem mem_insertAll_iff_last {new old : List (MapKey × β)} (hold : Sorted old) {e : MapKey × β} :
    e ∈ insertAll new old ↔
      (∃ before after, new = before ++ e :: after ∧ ∀ e' ∈ after, e'.1 ≠ e.1) ∨
        (e ∈ old ∧ ∀ e' ∈ new, e'.1 ≠ e.1) := by
  induction new generalizing old with
  | nil => simp [insertAll]
  | cons first new ih =>
    have hrest := ih (sorted_insert first.1 first.2 hold)
    rw [mem_insert_iff hold] at hrest
    -- The first entry stays if its key does not come again.
    have hsplit := @exists_append_cons_iff _ first e new fun after => ∀ e' ∈ after, e'.1 ≠ e.1
    show e ∈ insertAll new (insert first.1 first.2 old) ↔ _
    rw [hrest, hsplit]
    grind

theorem mem_keys_insert {key k : MapKey} {value : β} {entries : List (MapKey × β)} :
    k ∈ (insert key value entries).map (·.1) ↔ k = key ∨ k ∈ entries.map (·.1) := by
  induction entries with
  | nil => simp [insert]
  | cons e rest ih =>
    obtain ⟨k', v⟩ := e
    rw [insert]
    split
    · simp_all
    · split
      · simp
      · rw [List.map_cons, List.mem_cons, ih, List.map_cons, List.mem_cons]
        exact or_left_comm

theorem mem_keys_insertAll {new old : List (MapKey × β)} {k : MapKey} :
    k ∈ (insertAll new old).map (·.1) ↔ k ∈ new.map (·.1) ∨ k ∈ old.map (·.1) := by
  induction new generalizing old with
  | nil => simp [insertAll]
  | cons first new ih =>
    show k ∈ (insertAll new (insert first.1 first.2 old)).map (·.1) ↔ _
    rw [ih, mem_keys_insert, List.map_cons, List.mem_cons, or_left_comm, or_assoc]

/-- A map has as many entries as were set exactly if no key was set twice. -/
theorem length_insertAll_eq_iff {new : List (MapKey × β)} :
    (insertAll new []).length = new.length ↔ (new.map (·.1)).Nodup := by
  have hnodup := (sorted_insertAll new (List.Pairwise.nil : Sorted [])).nodup_keys
  have hperm : ((insertAll new []).map (·.1)).Perm (new.map (·.1)).dedup := by
    rw [List.perm_ext_iff_of_nodup hnodup (List.nodup_dedup _)]
    intro key
    rw [List.mem_dedup, mem_keys_insertAll]
    simp
  have hlength := hperm.length_eq
  rw [List.length_map] at hlength
  rw [hlength, ← List.dedup_eq_self]
  constructor
  · intro h
    exact (List.dedup_sublist _).eq_of_length (h.trans (List.length_map _).symm)
  · intro h
    rw [h, List.length_map]

/-- Entries with distinct keys make the same map in any order. -/
theorem insertAll_perm {new new' : List (MapKey × β)} (h : new.Perm new')
    (hnodup : (new.map (·.1)).Nodup) : insertAll new [] = insertAll new' [] := by
  have hnil : Sorted ([] : List (MapKey × β)) := List.Pairwise.nil
  refine (sorted_insertAll new hnil).eq_of_mem_iff (sorted_insertAll new' hnil) fun e => ?_
  rw [mem_insertAll_iff hnodup hnil, mem_insertAll_iff ((h.map _).nodup hnodup) hnil, h.mem_iff]
  simp

end MapEntries

end Protobuf
