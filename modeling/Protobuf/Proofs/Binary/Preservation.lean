import Protobuf.Proofs.Binary.Step
import Protobuf.Proofs.Steps
import Protobuf.Proofs.Wire.Record

/-! # Reading keeps messages in their types

Whatever bytes are merged into a message of a type, and whether they are read to the end
or not, a message of the type comes out.

* `Nested.Typed`: readers of nested payloads that keep types.
* `Slot.hasType_mergeRecord`, `hasType_mergeRecord`: one record.
* `typed_nestedWithin`: all readers keep types, however deep they may go.
* `Message.hasType_decode`: what was decoded is of the type asked for.
-/

namespace Protobuf

variable {Ref : Type} {S : Schema Ref} {nested : Nested Ref}

structure Nested.Typed (S : Schema Ref) (nested : Nested Ref) : Prop where
  merge : ∀ r bytes {m}, Message.HasType S r m → Message.HasType S r (nested.merge r bytes m).2
  entry : ∀ {key t bytes k v}, nested.entry key t bytes = .ok (k, v) →
    k.HasKind key ∧ Value.HasType S t v

/-! ## Values -/

theorem Nested.Typed.hasType_mergeRecord (h : nested.Typed S) (rec : Record) {r : Ref} {m : Message}
    (typed : Message.HasType S r m) :
    Message.HasType S r (nested.mergeRecord rec r m).2 := by
  unfold Nested.mergeRecord
  split
  · exact h.merge r _ typed
  · exact typed

theorem Nested.Typed.hasType_onto (h : nested.Typed S) (rec : Record) {t : FieldType Ref}
    {old : Value} (typed : Value.HasType S t old) :
    Value.HasType S t (nested.onto S rec old t).2 := by
  cases t with
  | plain t =>
    rw [Nested.onto]
    split
    · exact .plain t _
    · exact typed
  | message r =>
    obtain ⟨m, rfl, hm⟩ := typed.exists_message
    exact .message (h.hasType_mergeRecord rec hm)

theorem Nested.Typed.hasType_fresh (h : nested.Typed S) {rec : Record} {t : FieldType Ref}
    {v : Value} (hv : nested.fresh S rec t = .ok v) : Value.HasType S t v := by
  cases t with
  | plain t =>
    rw [Nested.fresh] at hv
    obtain ⟨x, -, rfl⟩ := map_eq_ok.1 hv
    exact .plain t x
  | message r =>
    rw [Nested.fresh] at hv
    split at hv
    · rename_i m hmerge
      cases hv
      have := h.hasType_mergeRecord rec (Message.hasType_default S r)
      rw [hmerge] at this
      exact .message this
    · cases hv

/-! ## Slots -/

theorem Slot.HasType.repeated_append {f : Field (FieldType Ref)} {vs ws : List Value}
    (typed : Slot.HasType S (.repeated f) (.repeated vs)) (hws : ∀ v ∈ ws, Value.HasType S f.type v) :
    Slot.HasType S (.repeated f) (.repeated (vs ++ ws)) := by
  cases typed with
  | repeated hvs =>
    exact .repeated fun v hv => (List.mem_append.1 hv).elim (hvs v) (hws v)

/-- The entry may take the place of one with the same key, which keeps the order. -/
theorem Slot.HasType.map_insert {key : Scalar} {f : Field (FieldType Ref)}
    {entries : List (MapKey × Value)} {k : MapKey} {v : Value}
    (typed : Slot.HasType S (.map key f) (.map entries)) (hk : k.HasKind key)
    (hv : Value.HasType S f.type v) :
    Slot.HasType S (.map key f) (.map (MapEntries.insert k v entries)) := by
  cases typed with
  | map sorted keys values =>
    refine .map (MapEntries.sorted_insert k v sorted) (fun e he => ?_) fun e he => ?_
    · rcases MapEntries.mem_insert he with rfl | he
      · exact hk
      · exact keys e he
    · rcases MapEntries.mem_insert he with rfl | he
      · exact hv
      · exact values e he

theorem Slot.hasType_mergeRecord (h : nested.Typed S) (rec : Record) {t : SlotType Ref} {s : Slot}
    (distinct : t.numbers.Nodup) (typed : Slot.HasType S t s) :
    Slot.HasType S t (s.mergeRecord S nested rec t).2 := by
  have hmerged := Slot.merged_mergeRecord S nested rec t s
  generalize Slot.mergeRecord S nested rec t s = result at hmerged ⊢
  cases hmerged with
  | kept => exact typed
  | implicit f s x => exact .implicit f x
  | @optional f old v outcome hread =>
    -- A value that was not there is read as if its default had been.
    have hold : Value.HasType S f.type (old.getD (f.type.default S)) := by
      cases typed with
      | absent => exact Value.hasType_default S f.type
      | present hv => exact hv
    have hv := h.hasType_onto rec hold
    rw [hread] at hv
    exact .present hv
  | @scalars f t ht vs xs outcome =>
    refine typed.repeated_append fun v hv => ?_
    obtain ⟨x, -, rfl⟩ := List.mem_map.1 hv
    exact ht ▸ .plain t x
  | element vs hread =>
    refine typed.repeated_append fun v hv => ?_
    rw [List.mem_singleton.1 hv]
    exact h.hasType_fresh hread
  | entry entries hread =>
    obtain ⟨hk, hv⟩ := h.entry hread
    exact typed.map_insert hk hv
  | @member name members f old v outcome hf hread =>
    have hnumber : f.number = rec.number := by simpa using List.find?_some hf
    have hv := h.hasType_onto rec (typed.member_of_find? distinct hf)
    rw [hread] at hv
    exact hnumber ▸ .member (List.mem_of_find?_eq_some hf) hv
  | @replaced name members f old v hf hread =>
    have hnumber : f.number = rec.number := by simpa using List.find?_some hf
    exact hnumber ▸ .member (List.mem_of_find?_eq_some hf) (h.hasType_fresh hread)

/-! ## Messages -/

theorem hasType_mergeRecord (h : nested.Typed S) (rec : Record) {ts : List (SlotType Ref)}
    {ss : List Slot} (wf : ∀ t ∈ ts, t.WellFormed) (typed : List.Forall₂ (Slot.HasType S) ts ss) :
    List.Forall₂ (Slot.HasType S) ts (mergeRecord S nested rec ts ss).2 := by
  induction typed with
  | nil => exact .nil
  | @cons t s ts ss hs hss ih =>
    rw [mergeRecord]
    split
    · exact .cons (Slot.hasType_mergeRecord h rec (wf t (by simp)).distinct hs) hss
    · exact .cons hs (ih fun t' ht' => wf t' (by simp [ht']))

theorem hasType_entryStep (h : nested.Typed S) (key : Scalar) {t : FieldType Ref} (rec : Record)
    {entry : key.Carrier × Value} (typed : Value.HasType S t entry.2) :
    Value.HasType S t (entryStep S nested key t rec entry).2.2 := by
  unfold entryStep
  split
  · split <;> exact typed
  · split
    · exact h.hasType_onto rec typed
    · exact typed

/-- Readers keep types, however deep they may go. -/
theorem typed_nestedWithin (wf : S.WellFormed) (levels : Nat) : (nestedWithin S levels).Typed S := by
  induction levels with
  | zero => exact ⟨fun r bytes m typed => typed, fun h => by cases h⟩
  | succ levels ih =>
    -- Both readers of nested payloads go through their records with the readers below them.
    refine ⟨fun r bytes m typed => ?_, fun {key t bytes k v} hentry => ?_⟩
    · exact Record.forEach_preserves (P := Message.HasType S r)
        (fun rec m hm => hasType_mergeRecord ih rec (fun t ht => (wf r).slot ht) hm) bytes typed
    · have hvalue := Record.forEach_preserves (P := fun e => Value.HasType S t e.2)
        (fun rec e he => hasType_entryStep ih key rec he) bytes
        (s := (key.default, t.default S)) (Value.hasType_default S t)
      rw [nestedWithin_succ_entry] at hentry
      split at hentry
      · rename_i k' v' hread
        rw [hread] at hvalue
        cases hentry
        exact ⟨⟨k', rfl⟩, hvalue⟩
      · cases hentry

theorem Message.hasType_mergeBytes (wf : S.WellFormed) {r : Ref} (bytes : Bytes) {m : Message}
    (typed : Message.HasType S r m) : Message.HasType S r (mergeBytes S r bytes m).2 :=
  Record.forEach_preserves (P := Message.HasType S r)
    (fun rec _ hm => hasType_mergeRecord (typed_nestedWithin wf nestingLimit) rec
      (fun _ ht => (wf r).slot ht) hm) bytes typed

/-- What was decoded is of the type asked for. -/
theorem Message.hasType_decode (wf : S.WellFormed) {r : Ref} {bytes : Bytes} {m : Message}
    (h : decode S r bytes = .ok m) : Message.HasType S r m := by
  have typed := hasType_mergeBytes wf bytes (hasType_default S r)
  rw [decode] at h
  split at h
  · rename_i m' hmerge
    rw [hmerge] at typed
    cases h
    exact typed
  · cases h

end Protobuf
