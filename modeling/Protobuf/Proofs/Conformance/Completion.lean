import Protobuf.Proofs.Conformance.Json
import Protobuf.Proofs.Schema.Completion

/-! # Completing partial messages

What a partial message completes to, for the messages of any schema, with a wardrobe of the suite
as a case.

* `Message.complete_full_overlays`: the full partial message gives the message back, and any
  partial message is laid over the defaults slot by slot.
-/

namespace Protobuf

variable {Ref : Type} {S : Schema Ref}

/-- A message is what its full partial message completes to, which is one of its type.  Whatever a
    partial message says, each slot of what it completes to comes from what is said about that slot:
    two partial messages that say the same about it agree on it, and if nothing is said, then it has
    its default.  A partial message of a type completes to a message of that type. -/
theorem Message.complete_full_overlays {r : Ref} {m : Message} (typed : HasType S r m) :
    (PartialMessage.HasType S r (full m) ∧ PartialMessage.complete S r (full m) = m) ∧
      ∀ p : PartialMessage,
        (PartialMessage.HasType S r p → HasType S r (PartialMessage.complete S r p)) ∧
        ∀ i t, (S r).slots[i]? = some t →
          (PartialMessage.complete S r p)[i]? = some (PartialSlot.complete S t (p.said i)) ∧
          (∀ q : PartialMessage, q.said i = p.said i →
            (PartialMessage.complete S r q)[i]? = (PartialMessage.complete S r p)[i]?) ∧
          (p.said i = .unset → (PartialMessage.complete S r p)[i]? = some t.default) := by
  refine ⟨⟨hasType_slotsFull typed, complete_full typed⟩, fun p => ⟨fun h => h.complete, ?_⟩⟩
  intro i t ht
  have hp := getElem?_complete S ht p
  refine ⟨hp, ?_, ?_⟩
  · intro q hsame
    rw [getElem?_complete S ht q, hsame, hp]
  · intro hunset
    rw [hp, hunset, complete_unset]

namespace TestMessage

/-- A wardrobe of which only the size of the featured hat is said. -/
def featuring : PartialMessage :=
  List.replicate 9 .unset ++ [.one (.message [.one (.scalar .int32 (7 : Int32))])]

/-- A stocked wardrobe is what its full partial message completes to.  A hat that is half said is
    completed where it stands, and the count in front of it is left at its default. -/
theorem complete_full_overlays_stocked :
    PartialMessage.complete schema wardrobe (Message.full stocked) = stocked ∧
      (PartialMessage.complete schema wardrobe featuring)[8]? = some (.optional none) ∧
      (PartialMessage.complete schema wardrobe featuring)[9]? = some (.optional (some (.message
        [.implicit .int32 (7 : Int32), .implicit .string "", .implicit .string ""]))) := by
  obtain ⟨hfull, hall⟩ := Message.complete_full_overlays hasType_stocked
  obtain ⟨-, hslots⟩ := hall featuring
  have hcount := (hslots 8 (.optional (field "count" 9 (scalar .int32))) rfl).2.2 rfl
  have hfeatured := (hslots 9 (submessage "featured" 10 .hat) rfl).1
  exact ⟨hfull.2, hcount, hfeatured⟩

end TestMessage

end Protobuf
