import Protobuf.Proofs.Schema.Depth
import Protobuf.Proofs.Schema.Typing

/-! # One message laid over another

What merging a message into another should give, slot by slot and without any bytes:
singular fields take the new value if it is set, sub-messages are merged in turn,
lists are appended, and entries of maps are replaced.

* `Value.overlay`, `Slot.overlay`, `Message.overlay`.
* `Message.overlay_default`: laid over nothing, a message is itself.
-/

namespace Protobuf

variable {Ref : Type}

mutual

def Value.overlay (S : Schema Ref) : FieldType Ref → (old new : Value) → Value
  | .message r, old, .message new =>
    .message (overlaySlots S (S r).slots (old.messageOr (S r).default) new)
  | _, _, v => v

def overlaySlots (S : Schema Ref) : List (SlotType Ref) → (old new : List Slot) → List Slot
  | t :: ts, old :: olds, new :: news => Slot.overlay S t old new :: overlaySlots S ts olds news
  | _, olds, _ => olds

def Slot.overlay (S : Schema Ref) : SlotType Ref → (old new : Slot) → Slot
  | .implicit _, old, .implicit k v => if v = k.default then old else .implicit k v
  | .optional f, .optional old, .optional (some v) =>
    .optional (some (Value.overlay S f.type (old.getD (f.type.default S)) v))
  | .repeated _, .repeated old, .repeated new => .repeated (old ++ new)
  | .map _ _, .map old, .map new => .map (MapEntries.insertAll new old)
  | .oneof _ members, .oneof old, .oneof (some (number, v)) =>
    match members.find? (·.number = number), old with
    | some f, some (oldNumber, w) =>
      if oldNumber = number then .oneof (some (number, Value.overlay S f.type w v))
      else .oneof (some (number, v))
    | _, _ => .oneof (some (number, v))
  | _, old, _ => old

end

def Message.overlay (S : Schema Ref) (r : Ref) (old new : Message) : Message :=
  overlaySlots S (S r).slots old new

/-! ## Over nothing -/

section

variable {S : Schema Ref}

theorem Slot.overlay_default {t : SlotType Ref} {s : Slot} (typed : Slot.HasType S t s)
    (ih : ∀ ft v, v.depth ≤ s.depth → Value.HasType S ft v →
      Value.overlay S ft (ft.default S) v = v) :
    Slot.overlay S t t.default s = s := by
  cases typed with
  | implicit f v =>
    rw [SlotType.default, Slot.overlay]
    split
    · rename_i h; rw [h]
    · rfl
  | absent f => rfl
  | @present f v h =>
    have hv := ih f.type v (by simp [Slot.depth]) h
    simp only [SlotType.default, Slot.overlay, Option.getD_none, hv]
  | repeated h => simp [SlotType.default, Slot.overlay]
  | map sorted keys values =>
    rw [SlotType.default, Slot.overlay, MapEntries.insertAll_of_sorted (by simpa using sorted)]
    rfl
  | unset name members => rfl
  | member mem h =>
    simp [SlotType.default, Slot.overlay]

theorem overlaySlots_default {ts : List (SlotType Ref)} {ss : List Slot}
    (typed : List.Forall₂ (Slot.HasType S) ts ss)
    (ih : ∀ s ∈ ss, ∀ ft v, v.depth ≤ s.depth → Value.HasType S ft v →
      Value.overlay S ft (ft.default S) v = v) :
    overlaySlots S ts (ts.map SlotType.default) ss = ss := by
  induction typed with
  | nil => rfl
  | @cons t s ts ss hts _ ihslots =>
    rw [List.map_cons, overlaySlots, Slot.overlay_default hts (ih s (by simp)),
      ihslots fun s' hs' => ih s' (by simp [hs'])]

theorem Value.overlay_default (t : FieldType Ref) (v : Value) (typed : Value.HasType S t v) :
    Value.overlay S t (t.default S) v = v := by
  -- Every value inside `v` is less deep than `v`, so the induction is on the depth.
  generalize hn : v.depth = n
  induction n using Nat.strongRecOn generalizing t v with
  | _ n ih =>
    cases typed with
    | plain t x => rfl
    | @message r slots h =>
      rw [FieldType.default, Value.overlay, Value.messageOr, MessageType.default,
        overlaySlots_default h fun s hs ft v hv htyped => ?_]
      have hdepth := Message.depth_le_iff.1 (Nat.le_refl (Message.depth slots)) s hs
      rw [Value.depth_message] at hn
      exact ih v.depth (by omega) ft v htyped rfl

/-- Laid over nothing, a message is itself. -/
theorem Message.overlay_default {r : Ref} {m : Message} (typed : Message.HasType S r m) :
    Message.overlay S r (S r).default m = m := by
  have h := Value.overlay_default (.message r) (.message m) (.message typed)
  rw [FieldType.default, Value.overlay, Value.messageOr] at h
  exact (Value.message.inj h)

end

end Protobuf
