import Protobuf.Schema.Basic

/-! # How deep messages are nested

The depth of a message is the greatest number of readers that are open one inside the
other while it is read.  A sub-message takes one, be it a field, a list element or the
member of a oneof; a map entry takes one, and a message in it another.

* `Value.depth`, `Slot.depth`, `Message.depth`.
* `Message.depth_le_iff`, `Slot.depth_le_iff…`: a bound on a whole is one on its parts.
-/

namespace Protobuf

mutual

def Value.depth : Value → Nat
  | .scalar _ _ => 0
  | .message slots => slotsDepth slots + 1

def slotsDepth : List Slot → Nat
  | [] => 0
  | s :: rest => max s.depth (slotsDepth rest)

def Slot.depth : Slot → Nat
  | .implicit _ _ => 0
  | .optional none => 0
  | .optional (some v) => v.depth
  | .repeated vs => valuesDepth vs
  | .map entries => entriesDepth entries
  | .oneof none => 0
  | .oneof (some (_, v)) => v.depth

def valuesDepth : List Value → Nat
  | [] => 0
  | v :: rest => max v.depth (valuesDepth rest)

def entriesDepth : List (MapKey × Value) → Nat
  | [] => 0
  | (_, v) :: rest => max (v.depth + 1) (entriesDepth rest)

end

def Message.depth (m : Message) : Nat := slotsDepth m

theorem Value.depth_message (m : Message) : (Value.message m).depth = Message.depth m + 1 := by
  rw [Value.depth, Message.depth]

/-- A message is as deep as its deepest slot. -/
theorem Message.depth_le_iff {m : Message} {n : Nat} : depth m ≤ n ↔ ∀ s ∈ m, s.depth ≤ n := by
  unfold depth
  induction m with
  | nil => simp [slotsDepth]
  | cons s rest ih => rw [slotsDepth, Nat.max_le, ih, List.forall_mem_cons]

theorem valuesDepth_le_iff {vs : List Value} {n : Nat} :
    valuesDepth vs ≤ n ↔ ∀ v ∈ vs, v.depth ≤ n := by
  induction vs with
  | nil => simp [valuesDepth]
  | cons v rest ih => rw [valuesDepth, Nat.max_le, ih, List.forall_mem_cons]

theorem entriesDepth_le_iff {entries : List (MapKey × Value)} {n : Nat} :
    entriesDepth entries ≤ n ↔ ∀ e ∈ entries, e.2.depth + 1 ≤ n := by
  induction entries with
  | nil => simp [entriesDepth]
  | cons e rest ih => rw [entriesDepth, Nat.max_le, ih, List.forall_mem_cons]

end Protobuf
