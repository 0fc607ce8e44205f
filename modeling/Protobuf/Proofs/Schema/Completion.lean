import Protobuf.Proofs.Schema.Typing
import Protobuf.Schema.Partial

/-! # Partial messages of a type

A partial message of a type completes to a message of the type, slot by slot: what becomes
of a slot is decided by what is said about that slot.  Every message is what some partial
message completes to, namely the one that says all that the message holds.

* `PartialValue.HasType`, `PartialSlot.HasType`, `PartialMessage.HasType`: partial messages of
  a type.
* `Message.full`: the partial message that leaves nothing open.
* `getElem?_complete`: a message is completed slot by slot.
* `PartialMessage.HasType.complete`: completing keeps the type.
* `Message.complete_full`: nothing is lost between a message and its full partial message.
-/

namespace Protobuf

variable {Ref : Type}

mutual

inductive PartialValue.HasType (S : Schema Ref) : FieldType Ref → PartialValue → Prop
  | plain (t : PlainType) (v : t.wire.Carrier) : PartialValue.HasType S (.plain t) (.scalar t.wire v)
  | message {r : Ref} {slots : List PartialSlot}
      (h : List.Forall₂ (PartialSlot.HasType S) (S r).slots slots) :
      PartialValue.HasType S (.message r) (.message slots)

inductive PartialSlot.HasType (S : Schema Ref) : SlotType Ref → PartialSlot → Prop
  | unset (t : SlotType Ref) : PartialSlot.HasType S t .unset
  | implicit (f : Field PlainType) (v : f.type.wire.Carrier) :
      PartialSlot.HasType S (.implicit f) (.one (.scalar f.type.wire v))
  | optional {f : Field (FieldType Ref)} {v : PartialValue} (h : PartialValue.HasType S f.type v) :
      PartialSlot.HasType S (.optional f) (.one v)
  | repeated {f : Field (FieldType Ref)} {vs : List PartialValue}
      (h : ∀ v ∈ vs, PartialValue.HasType S f.type v) :
      PartialSlot.HasType S (.repeated f) (.list vs)
  | map {key : Scalar} {f : Field (FieldType Ref)} {entries : List (MapKey × PartialValue)}
      (sorted : MapEntries.Sorted entries) (keys : ∀ e ∈ entries, e.1.HasKind key)
      (values : ∀ e ∈ entries, PartialValue.HasType S f.type e.2) :
      PartialSlot.HasType S (.map key f) (.map entries)
  | member {name : String} {members : List (Field (FieldType Ref))} {f : Field (FieldType Ref)}
      {v : Value} (mem : f ∈ members) (h : Value.HasType S f.type v) :
      PartialSlot.HasType S (.oneof name members) (.member f.number v)

end

def PartialMessage.HasType (S : Schema Ref) (r : Ref) (p : PartialMessage) : Prop :=
  List.Forall₂ (PartialSlot.HasType S) (S r).slots p

/-! ## Slot by slot -/

/-- What a partial message says about the slot at a position. -/
def PartialMessage.said (p : PartialMessage) (i : Nat) : PartialSlot := p.getD i .unset

variable (S : Schema Ref)

/-- A slot that nothing is said about has its default. -/
@[simp] theorem complete_unset (t : SlotType Ref) : PartialSlot.complete S t .unset = t.default := by
  cases t <;> rw [PartialSlot.complete] <;> simp

theorem getElem?_completeSlots (ts : List (SlotType Ref)) (ps : List PartialSlot) (i : Nat) :
    (completeSlots S ts ps)[i]? =
      ts[i]?.map fun t => PartialSlot.complete S t (PartialMessage.said ps i) := by
  induction ts generalizing ps i with
  | nil =>
    cases ps with
    | nil => simp [completeSlots]
    | cons p ps => simp [completeSlots]
  | cons t ts ih =>
    cases ps with
    | nil => cases i <;> simp [completeSlots, PartialMessage.said]
    | cons p ps =>
      rw [completeSlots]
      cases i with
      | zero => simp [PartialMessage.said]
      | succ i => simpa [PartialMessage.said] using ih ps i

/-- What becomes of a slot is decided by what is said about it. -/
theorem getElem?_complete {r : Ref} {i : Nat} {t : SlotType Ref} (h : (S r).slots[i]? = some t)
    (p : PartialMessage) :
    (PartialMessage.complete S r p)[i]? = some (PartialSlot.complete S t (PartialMessage.said p i)) := by
  rw [PartialMessage.complete, getElem?_completeSlots, h, Option.map_some]

/-! ## Completing keeps the type -/

variable {S}

section

variable {α β : Type} {as : List (MapKey × α)} {bs : List (MapKey × β)}

/-- The order of entries is that of their keys. -/
theorem MapEntries.Sorted.of_keys (h : MapEntries.Sorted as)
    (keys : bs.map (·.1) = as.map (·.1)) : MapEntries.Sorted bs := by
  have hkeys : (as.map (·.1)).Pairwise fun a b => a.precedes b := List.pairwise_map.2 h
  exact List.pairwise_map.1 (keys ▸ hkeys)

theorem forall_of_keys {P : MapKey → Prop} (keys : bs.map (·.1) = as.map (·.1))
    (h : ∀ e ∈ as, P e.1) : ∀ e ∈ bs, P e.1 := by
  have hkeys : ∀ k ∈ as.map (·.1), P k := List.forall_mem_map.2 h
  exact List.forall_mem_map.1 (keys ▸ hkeys)

end

/-- The keys of a map are left as they are. -/
theorem keys_completeEntries (t : FieldType Ref) (entries : List (MapKey × PartialValue)) :
    (completeEntries S t entries).map (·.1) = entries.map (·.1) := by
  induction entries with
  | nil => rw [completeEntries, List.map_nil, List.map_nil]
  | cons e rest ih =>
    obtain ⟨k, v⟩ := e
    rw [completeEntries, List.map_cons, List.map_cons, ih]

mutual

theorem PartialValue.HasType.complete : {v : PartialValue} → {t : FieldType Ref} →
    PartialValue.HasType S t v → Value.HasType S t (v.complete S t)
  | .scalar _ _, _, .plain t x => by
    rw [PartialValue.complete]
    exact .plain t x
  | .message _, _, .message h => by
    rw [PartialValue.complete]
    exact .message (hasType_completeSlots h)

theorem hasType_completeSlots : {ps : List PartialSlot} → {ts : List (SlotType Ref)} →
    List.Forall₂ (PartialSlot.HasType S) ts ps →
      List.Forall₂ (Slot.HasType S) ts (completeSlots S ts ps)
  | [], _, .nil => by
    rw [completeSlots]
    exact .nil
  | _ :: _, _, .cons h hrest => by
    rw [completeSlots]
    exact .cons h.complete (hasType_completeSlots hrest)

theorem PartialSlot.HasType.complete : {p : PartialSlot} → {t : SlotType Ref} →
    PartialSlot.HasType S t p → Slot.HasType S t (PartialSlot.complete S t p)
  | .unset, t, _ => by
    rw [complete_unset]
    exact Slot.hasType_default S t
  | .one v, _, h => by
    -- The field may have presence or not; that it was said is written alike.
    cases h with
    | implicit f x =>
      rw [PartialSlot.complete]
      exact .implicit f x
    | optional h =>
      rw [PartialSlot.complete]
      exact .present h.complete
  | .list _, _, .repeated h => by
    rw [PartialSlot.complete]
    exact .repeated (hasType_completeList h)
  | .map entries, .map _ f, .map sorted keys values => by
    rw [PartialSlot.complete]
    have hkeys := keys_completeEntries (S := S) f.type entries
    exact .map (sorted.of_keys hkeys) (forall_of_keys hkeys keys) (hasType_completeEntries values)
  | .member _ _, _, .member mem h => by
    rw [PartialSlot.complete]
    exact .member mem h

theorem hasType_completeList {t : FieldType Ref} : {vs : List PartialValue} →
    (∀ v ∈ vs, PartialValue.HasType S t v) → ∀ v ∈ completeList S t vs, Value.HasType S t v
  | [], _ => by
    rw [completeList]
    simp
  | v :: rest, h => by
    rw [completeList]
    obtain ⟨hv, hrest⟩ := List.forall_mem_cons.1 h
    exact List.forall_mem_cons.2 ⟨hv.complete, hasType_completeList hrest⟩

theorem hasType_completeEntries {t : FieldType Ref} : {entries : List (MapKey × PartialValue)} →
    (∀ e ∈ entries, PartialValue.HasType S t e.2) →
      ∀ e ∈ completeEntries S t entries, Value.HasType S t e.2
  | [], _ => by
    rw [completeEntries]
    simp
  | (k, v) :: rest, h => by
    rw [completeEntries]
    obtain ⟨hv, hrest⟩ := List.forall_mem_cons.1 h
    exact List.forall_mem_cons.2 ⟨hv.complete, hasType_completeEntries hrest⟩

end

theorem PartialMessage.HasType.complete {r : Ref} {p : PartialMessage}
    (h : PartialMessage.HasType S r p) : Message.HasType S r (PartialMessage.complete S r p) :=
  hasType_completeSlots h

/-! ## The full partial message -/

mutual

def Value.full : Value → PartialValue
  | .scalar k v => .scalar k v
  | .message slots => .message (slotsFull slots)

def slotsFull : List Slot → List PartialSlot
  | [] => []
  | s :: rest => s.full :: slotsFull rest

/-- A slot with everything that it holds said.  Nothing is said of an optional value or a oneof
    that is not set. -/
def Slot.full : Slot → PartialSlot
  | .implicit k v => .one (.scalar k v)
  | .optional none => .unset
  | .optional (some v) => .one v.full
  | .repeated vs => .list (valuesFull vs)
  | .map entries => .map (entriesFull entries)
  | .oneof none => .unset
  | .oneof (some (number, v)) => .member number v

def valuesFull : List Value → List PartialValue
  | [] => []
  | v :: rest => v.full :: valuesFull rest

def entriesFull : List (MapKey × Value) → List (MapKey × PartialValue)
  | [] => []
  | (k, v) :: rest => (k, v.full) :: entriesFull rest

end

def Message.full (m : Message) : PartialMessage := slotsFull m

theorem keys_entriesFull (entries : List (MapKey × Value)) :
    (entriesFull entries).map (·.1) = entries.map (·.1) := by
  induction entries with
  | nil => rw [entriesFull, List.map_nil, List.map_nil]
  | cons e rest ih =>
    obtain ⟨k, v⟩ := e
    rw [entriesFull, List.map_cons, List.map_cons, ih]

mutual

theorem Value.HasType.full : {v : Value} → {t : FieldType Ref} → Value.HasType S t v →
    PartialValue.HasType S t v.full
  | .scalar _ _, _, .plain t x => by
    rw [Value.full]
    exact .plain t x
  | .message _, _, .message h => by
    rw [Value.full]
    exact .message (hasType_slotsFull h)

theorem hasType_slotsFull : {slots : List Slot} → {ts : List (SlotType Ref)} →
    List.Forall₂ (Slot.HasType S) ts slots → List.Forall₂ (PartialSlot.HasType S) ts (slotsFull slots)
  | [], _, .nil => by
    rw [slotsFull]
    exact .nil
  | _ :: _, _, .cons h hrest => by
    rw [slotsFull]
    exact .cons h.full (hasType_slotsFull hrest)

theorem Slot.HasType.full : {s : Slot} → {t : SlotType Ref} → Slot.HasType S t s →
    PartialSlot.HasType S t s.full
  | .implicit _ _, _, .implicit f x => by
    rw [Slot.full]
    exact .implicit f x
  | .optional none, _, .absent _ => by
    rw [Slot.full]
    exact .unset _
  | .optional (some _), _, .present h => by
    rw [Slot.full]
    exact .optional h.full
  | .repeated _, _, .repeated h => by
    rw [Slot.full]
    exact .repeated (hasType_valuesFull h)
  | .map entries, _, .map sorted keys values => by
    rw [Slot.full]
    have hkeys := keys_entriesFull entries
    exact .map (sorted.of_keys hkeys) (forall_of_keys hkeys keys) (hasType_entriesFull values)
  | .oneof none, _, .unset _ _ => by
    rw [Slot.full]
    exact .unset _
  | .oneof (some _), _, .member mem h => by
    rw [Slot.full]
    exact .member mem h

theorem hasType_valuesFull {t : FieldType Ref} : {vs : List Value} →
    (∀ v ∈ vs, Value.HasType S t v) → ∀ v ∈ valuesFull vs, PartialValue.HasType S t v
  | [], _ => by
    rw [valuesFull]
    simp
  | v :: rest, h => by
    rw [valuesFull]
    obtain ⟨hv, hrest⟩ := List.forall_mem_cons.1 h
    exact List.forall_mem_cons.2 ⟨hv.full, hasType_valuesFull hrest⟩

theorem hasType_entriesFull {t : FieldType Ref} : {entries : List (MapKey × Value)} →
    (∀ e ∈ entries, Value.HasType S t e.2) → ∀ e ∈ entriesFull entries, PartialValue.HasType S t e.2
  | [], _ => by
    rw [entriesFull]
    simp
  | (k, v) :: rest, h => by
    rw [entriesFull]
    obtain ⟨hv, hrest⟩ := List.forall_mem_cons.1 h
    exact List.forall_mem_cons.2 ⟨hv.full, hasType_entriesFull hrest⟩

end

mutual

theorem Value.complete_full : {v : Value} → {t : FieldType Ref} → Value.HasType S t v →
    v.full.complete S t = v
  | .scalar _ _, _, .plain _ _ => by
    rw [Value.full, PartialValue.complete]
  | .message _, _, .message h => by
    rw [Value.full, PartialValue.complete, completeSlots_full h]

theorem completeSlots_full : {slots : List Slot} → {ts : List (SlotType Ref)} →
    List.Forall₂ (Slot.HasType S) ts slots → completeSlots S ts (slotsFull slots) = slots
  | [], _, .nil => by
    rw [slotsFull, completeSlots, List.map_nil]
  | _ :: _, _, .cons h hrest => by
    rw [slotsFull, completeSlots, Slot.complete_full h, completeSlots_full hrest]

theorem Slot.complete_full : {s : Slot} → {t : SlotType Ref} → Slot.HasType S t s →
    PartialSlot.complete S t s.full = s
  | .implicit _ _, _, .implicit _ _ => by
    rw [Slot.full, PartialSlot.complete]
  | .optional none, _, .absent _ => by
    rw [Slot.full, complete_unset, SlotType.default]
  | .optional (some _), _, .present h => by
    rw [Slot.full, PartialSlot.complete, Value.complete_full h]
  | .repeated _, _, .repeated h => by
    rw [Slot.full, PartialSlot.complete, completeList_full h]
  | .map _, _, .map _ _ values => by
    rw [Slot.full, PartialSlot.complete, completeEntries_full values]
  | .oneof none, _, .unset _ _ => by
    rw [Slot.full, complete_unset, SlotType.default]
  | .oneof (some _), _, .member _ _ => by
    rw [Slot.full, PartialSlot.complete]

theorem completeList_full {t : FieldType Ref} : {vs : List Value} →
    (∀ v ∈ vs, Value.HasType S t v) → completeList S t (valuesFull vs) = vs
  | [], _ => by
    rw [valuesFull, completeList]
  | v :: rest, h => by
    obtain ⟨hv, hrest⟩ := List.forall_mem_cons.1 h
    rw [valuesFull, completeList, Value.complete_full hv, completeList_full hrest]

theorem completeEntries_full {t : FieldType Ref} : {entries : List (MapKey × Value)} →
    (∀ e ∈ entries, Value.HasType S t e.2) → completeEntries S t (entriesFull entries) = entries
  | [], _ => by
    rw [entriesFull, completeEntries]
  | (k, v) :: rest, h => by
    obtain ⟨hv, hrest⟩ := List.forall_mem_cons.1 h
    rw [entriesFull, completeEntries, Value.complete_full hv, completeEntries_full hrest]

end

theorem Message.complete_full {r : Ref} {m : Message} (h : Message.HasType S r m) :
    PartialMessage.complete S r (Message.full m) = m :=
  completeSlots_full h

end Protobuf
