import Protobuf.Proofs.Binary.Spelling

/-! # Messages with one slot set

A message of which one slot is set, and all others are as they are by default.

* `Message.only`: the message.
* `Message.hasType_only`, `Message.depth_only`, `Message.encode_only`: its type, depth and
  bytes are those of the slot.
* `mergeRecord_only`: a record for the slot changes no other.
-/

namespace Protobuf

variable {Ref : Type} {S : Schema Ref}

/-- The message of type `r` of which the slot at `i` is `s`, and all others are not set. -/
def Message.only (S : Schema Ref) (r : Ref) (i : Nat) (s : Slot) : Message := (S r).default.set i s

theorem hasType_set {ts : List (SlotType Ref)} {ss : List Slot} {i : Nat} {t : SlotType Ref}
    {s : Slot} (typed : List.Forall₂ (Slot.HasType S) ts ss) (ht : ts[i]? = some t)
    (hs : Slot.HasType S t s) : List.Forall₂ (Slot.HasType S) ts (ss.set i s) := by
  induction typed generalizing i with
  | nil => exact .nil
  | @cons t' s' ts ss ht' _ ih =>
    cases i with
    | zero => exact .cons (Option.some.inj ht ▸ hs) ‹_›
    | succ i => exact .cons ht' (ih (by simpa using ht))

/-- A message with one slot set is of its type if the slot is. -/
theorem Message.hasType_only {r : Ref} {i : Nat} {t : SlotType Ref} {s : Slot}
    (ht : (S r).slots[i]? = some t) (hs : Slot.HasType S t s) :
    Message.HasType S r (only S r i s) :=
  hasType_set (hasType_default S r) ht hs

theorem SlotType.depth_default (t : SlotType Ref) : t.default.depth = 0 := by
  cases t <;> simp [SlotType.default, Slot.depth, valuesDepth, entriesDepth]

theorem slotsDepth_default (ts : List (SlotType Ref)) : slotsDepth (ts.map SlotType.default) = 0 :=
  Nat.le_zero.1 (Message.depth_le_iff.2 (by simp [SlotType.depth_default]))

theorem slotsDepth_set {ts : List (SlotType Ref)} {i : Nat} (hi : i < ts.length) (s : Slot) :
    slotsDepth ((ts.map SlotType.default).set i s) = s.depth := by
  induction ts generalizing i with
  | nil => simp at hi
  | cons t ts ih =>
    cases i with
    | zero => simp [slotsDepth, slotsDepth_default]
    | succ i => simp [slotsDepth, SlotType.depth_default, ih (by simpa using hi)]

theorem Message.depth_only {r : Ref} {i : Nat} {t : SlotType Ref} (ht : (S r).slots[i]? = some t)
    (s : Slot) : depth (only S r i s) = s.depth :=
  slotsDepth_set (List.getElem?_eq_some_iff.1 ht).1 s

/-! ## On the wire -/

theorem SlotType.emissions_default (t : SlotType Ref) : Slot.emissions S t t.default = [] := by
  cases t <;> simp [SlotType.default, Slot.emissions]

theorem slotEmissions_set {ts : List (SlotType Ref)} {i : Nat} {t : SlotType Ref}
    (ht : ts[i]? = some t) (s : Slot) :
    slotEmissions S ts ((ts.map SlotType.default).set i s) = Slot.emissions S t s := by
  have hdefault : ∀ ts : List (SlotType Ref), slotEmissions S ts (ts.map SlotType.default) = [] := by
    intro ts
    induction ts with
    | nil => rfl
    | cons t ts ih => simp [slotEmissions, SlotType.emissions_default, ih]
  induction ts generalizing i with
  | nil => simp at ht
  | cons t' ts ih =>
    cases i with
    | zero =>
      cases Option.some.inj ht
      simp [slotEmissions, hdefault]
    | succ i => simp [slotEmissions, SlotType.emissions_default, ih (by simpa using ht)]

theorem Message.encode_only {r : Ref} {i : Nat} {t : SlotType Ref} (ht : (S r).slots[i]? = some t)
    (s : Slot) :
    encode S r (only S r i s) = ((Slot.emissions S t s).map (·.bytes)).flatten := by
  rw [encode_eq, messageEmissions, only, MessageType.default, slotEmissions_set ht,
    List.mergeSort_of_pairwise (Slot.pairwise_emissions t s)]

theorem mergeRecord_set {nested : Nested Ref} {rec : Record} {ts : List (SlotType Ref)}
    {ss : List Slot} {i : Nat} {t : SlotType Ref} {s : Slot}
    (distinct : (ts.flatMap SlotType.numbers).Nodup) (ht : ts[i]? = some t)
    (hnumber : rec.number ∈ t.numbers) (hi : i < ss.length) :
    mergeRecord S nested rec ts (ss.set i s) =
      ((Slot.mergeRecord S nested rec t s).1, ss.set i (Slot.mergeRecord S nested rec t s).2) := by
  induction ts generalizing i ss with
  | nil => simp at ht
  | cons t' ts ih =>
    rw [List.flatMap_cons, List.nodup_append] at distinct
    obtain ⟨-, hrest, hdisjoint⟩ := distinct
    cases ss with
    | nil => simp at hi
    | cons s' ss =>
      cases i with
      | zero =>
        cases Option.some.inj ht
        rw [List.set_cons_zero, mergeRecord, if_pos hnumber]
        rfl
      | succ i =>
        -- The record is for a later slot, so by the numbers it is not one for the first.
        have hlater : rec.number ∈ ts.flatMap SlotType.numbers :=
          List.mem_flatMap.2 ⟨t, List.mem_of_getElem? ht, hnumber⟩
        rw [List.set_cons_succ, mergeRecord, if_neg fun hin => hdisjoint _ hin _ hlater rfl,
          ih hrest (by simpa using ht) (by simpa using hi)]
        rfl

/-- A record for the slot that is set changes no other. -/
theorem mergeRecord_only {nested : Nested Ref} {rec : Record} {r : Ref} {i : Nat}
    {t : SlotType Ref} (wf : (S r).WellFormed) (ht : (S r).slots[i]? = some t)
    (hnumber : rec.number ∈ t.numbers) (s : Slot) :
    mergeRecord S nested rec (S r).slots (Message.only S r i s) =
      ((Slot.mergeRecord S nested rec t s).1,
        Message.only S r i (Slot.mergeRecord S nested rec t s).2) :=
  mergeRecord_set wf.distinct ht hnumber
    (by simpa [MessageType.default] using (List.getElem?_eq_some_iff.1 ht).1)

theorem Message.only_default {r : Ref} {i : Nat} {t : SlotType Ref}
    (ht : (S r).slots[i]? = some t) : only S r i t.default = (S r).default := by
  have hi : i < (S r).default.length := by
    simpa [MessageType.default] using (List.getElem?_eq_some_iff.1 ht).1
  have hslot : (S r).default[i] = t.default := by
    simp [MessageType.default, (List.getElem?_eq_some_iff.1 ht).2]
  rw [only, ← hslot, List.set_getElem_self]

end Protobuf
