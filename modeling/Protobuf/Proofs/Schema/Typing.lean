import Mathlib.Data.List.Forall2
import Mathlib.Data.List.Nodup
import Protobuf.Proofs.Schema.MapEntries
import Protobuf.Schema.Basic

/-! # Messages of a type

Which slots make up a message of a type, and which schemas describe messages at all.

* `Value.HasType`, `Slot.HasType`, `Message.HasType`: a value, a slot, a message of a
  type.
* `SlotType.WellFormed`, `MessageType.WellFormed`: every field has a number of its own that
  a record may carry.
* `Message.hasType_default`: a message of which nothing is set is of its type.
-/

namespace Protobuf

variable {Ref : Type}

mutual

inductive Value.HasType (S : Schema Ref) : FieldType Ref → Value → Prop
  | plain (t : PlainType) (v : t.wire.Carrier) : Value.HasType S (.plain t) (.scalar t.wire v)
  | message {r : Ref} {slots : List Slot} (h : List.Forall₂ (Slot.HasType S) (S r).slots slots) :
      Value.HasType S (.message r) (.message slots)

inductive Slot.HasType (S : Schema Ref) : SlotType Ref → Slot → Prop
  | implicit (f : Field PlainType) (v : f.type.wire.Carrier) :
      Slot.HasType S (.implicit f) (.implicit f.type.wire v)
  | absent (f : Field (FieldType Ref)) : Slot.HasType S (.optional f) (.optional none)
  | present {f : Field (FieldType Ref)} {v : Value} (h : Value.HasType S f.type v) :
      Slot.HasType S (.optional f) (.optional (some v))
  | repeated {f : Field (FieldType Ref)} {vs : List Value} (h : ∀ v ∈ vs, Value.HasType S f.type v) :
      Slot.HasType S (.repeated f) (.repeated vs)
  | map {key : Scalar} {f : Field (FieldType Ref)} {entries : List (MapKey × Value)}
      (sorted : MapEntries.Sorted entries) (keys : ∀ e ∈ entries, e.1.HasKind key)
      (values : ∀ e ∈ entries, Value.HasType S f.type e.2) :
      Slot.HasType S (.map key f) (.map entries)
  | unset (name : String) (members : List (Field (FieldType Ref))) :
      Slot.HasType S (.oneof name members) (.oneof none)
  | member {name : String} {members : List (Field (FieldType Ref))} {f : Field (FieldType Ref)}
      {v : Value} (mem : f ∈ members) (h : Value.HasType S f.type v) :
      Slot.HasType S (.oneof name members) (.oneof (some (f.number, v)))

end

/-- A message of the type `r`: its slots are those of the type, one after the other. -/
def Message.HasType (S : Schema Ref) (r : Ref) (m : Message) : Prop :=
  List.Forall₂ (Slot.HasType S) (S r).slots m

theorem exists_mem_zip {ts : List (SlotType Ref)} {ss : List Slot} {R : SlotType Ref → Slot → Prop}
    (h : List.Forall₂ R ts ss) {s : Slot} (hs : s ∈ ss) : ∃ t, (t, s) ∈ ts.zip ss := by
  induction h with
  | nil => cases hs
  | @cons t s' ts ss _ _ ih =>
    rcases List.mem_cons.1 hs with rfl | hs
    · exact ⟨t, by simp⟩
    · obtain ⟨t', ht'⟩ := ih hs
      exact ⟨t', by simp [ht']⟩

theorem find?_of_nodup {α β : Type} [DecidableEq β] {key : α → β} {as : List α} {a : α}
    (distinct : (as.map key).Nodup) (mem : a ∈ as) : as.find? (key · = key a) = some a := by
  induction as with
  | nil => cases mem
  | cons b rest ih =>
    obtain ⟨hb, hrest⟩ := List.nodup_cons.1 distinct
    rcases List.mem_cons.1 mem with rfl | hmem
    · simp
    · have hne : key b ≠ key a := fun h => hb (List.mem_map.2 ⟨a, hmem, h.symm⟩)
      rw [List.find?_cons_of_neg (by simpa using hne), ih hrest hmem]

theorem Value.HasType.exists_message {S : Schema Ref} {r : Ref} {v : Value}
    (h : v.HasType S (.message r)) : ∃ m, v = .message m ∧ Message.HasType S r m := by
  cases h with
  | message h => exact ⟨_, rfl, h⟩

theorem Value.HasType.exists_scalar {S : Schema Ref} {t : PlainType} {v : Value}
    (h : v.HasType S (.plain t)) : ∃ x : t.wire.Carrier, v = .scalar t.wire x := by
  cases h with
  | plain t x => exact ⟨x, rfl⟩

/-! ## What is not set -/

variable (S : Schema Ref)

theorem Slot.hasType_default (t : SlotType Ref) : Slot.HasType S t t.default := by
  cases t with
  | implicit f => exact .implicit f _
  | optional f => exact .absent f
  | repeated f => exact .repeated (by simp)
  | map key f => exact .map (by simp [MapEntries.Sorted]) (by simp) (by simp)
  | oneof name members => exact .unset name members

theorem Message.hasType_default (r : Ref) : Message.HasType S r (S r).default := by
  rw [Message.HasType, MessageType.default, List.forall₂_map_right_iff]
  exact List.forall₂_same.2 fun t _ => Slot.hasType_default S t

theorem Value.hasType_default (t : FieldType Ref) : Value.HasType S t (t.default S) := by
  cases t with
  | plain t => exact .plain t _
  | message r => exact .message (Message.hasType_default S r)

/-! ## Well-formed schemas -/

/-- Whether the keys of a slot, if it is a map, are of a kind that keys may have. -/
def SlotType.hasKeys : SlotType Ref → Bool
  | .map key _ => key.isKey
  | _ => true

structure SlotType.Coherent (t : SlotType Ref) : Prop where
  distinct : t.numbers.Nodup
  keys : t.hasKeys

/-- A slot whose fields can be told apart on the wire: each has a number of its own that a
    record may carry. -/
structure SlotType.WellFormed (t : SlotType Ref) : Prop extends t.Coherent where
  valid : ∀ n ∈ t.numbers, IsFieldNumber n

/-- A message type whose fields are told apart by their numbers. -/
structure MessageType.Coherent (t : MessageType Ref) : Prop where
  distinct : (t.slots.flatMap SlotType.numbers).Nodup
  keys : ∀ s ∈ t.slots, s.hasKeys

instance (t : MessageType Ref) : Decidable t.Coherent :=
  decidable_of_iff ((t.slots.flatMap SlotType.numbers).Nodup ∧ ∀ s ∈ t.slots, s.hasKeys)
    ⟨fun h => ⟨h.1, h.2⟩, fun h => ⟨h.distinct, h.keys⟩⟩

/-- A message type whose fields can be told apart on the wire: no two have one number,
    and a record may carry each number. -/
structure MessageType.WellFormed (t : MessageType Ref) : Prop extends t.Coherent where
  valid : ∀ n ∈ t.slots.flatMap SlotType.numbers, IsFieldNumber n

instance (t : MessageType Ref) : Decidable t.WellFormed :=
  decidable_of_iff (t.Coherent ∧ ∀ n ∈ t.slots.flatMap SlotType.numbers, IsFieldNumber n)
    ⟨fun h => ⟨h.1, h.2⟩, fun h => ⟨h.toCoherent, h.valid⟩⟩

theorem MessageType.Coherent.slot {t : MessageType Ref} (h : t.Coherent) {s : SlotType Ref}
    (hs : s ∈ t.slots) : s.Coherent where
  distinct := (List.nodup_flatMap.1 h.distinct).1 s hs
  keys := h.keys s hs

theorem MessageType.WellFormed.slot {t : MessageType Ref} (h : t.WellFormed) {s : SlotType Ref}
    (hs : s ∈ t.slots) : s.WellFormed where
  toCoherent := h.toCoherent.slot hs
  valid n hn := h.valid n (List.mem_flatMap.2 ⟨s, hs, hn⟩)

def Schema.Coherent (S : Schema Ref) : Prop := ∀ r, (S r).Coherent

def Schema.WellFormed (S : Schema Ref) : Prop := ∀ r, (S r).WellFormed

end Protobuf
