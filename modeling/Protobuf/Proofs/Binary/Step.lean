import Protobuf.Proofs.Schema.Typing
import Protobuf.Schema.Binary

/-! # What one record does to a slot

All that a record may change in a slot, said once for every property that reading keeps.

* `Slot.Merged`: a slot, and what may come of it.
* `Slot.merged_mergeRecord`: nothing else comes of it.
-/

namespace Protobuf

variable {Ref : Type}

/-- What a record may make of a slot of a type, along with the outcome of reading it. -/
inductive Slot.Merged (S : Schema Ref) (nested : Nested Ref) (rec : Record) :
    SlotType Ref → Slot → Except DecodeError Unit × Slot → Prop
  /-- The slot stays as it is, for a failure or an unknown member. -/
  | kept (t : SlotType Ref) (s : Slot) (outcome : Except DecodeError Unit) :
      Merged S nested rec t s (outcome, s)
  | implicit (f : Field PlainType) (s : Slot) (x : f.type.wire.Carrier) :
      Merged S nested rec (.implicit f) s (.ok (), .implicit f.type.wire x)
  | optional {f : Field (FieldType Ref)} {old : Option Value} {v : Value}
      {outcome : Except DecodeError Unit}
      (h : nested.onto S rec (old.getD (f.type.default S)) f.type = (outcome, v)) :
      Merged S nested rec (.optional f) (.optional old) (outcome, .optional (some v))
  | scalars {f : Field (FieldType Ref)} {t : PlainType} (ht : f.type = .plain t) (vs : List Value)
      (xs : List t.wire.Carrier) (outcome : Except DecodeError Unit) :
      Merged S nested rec (.repeated f) (.repeated vs)
        (outcome, .repeated (vs ++ xs.map (.scalar t.wire)))
  | element {f : Field (FieldType Ref)} (vs : List Value) {v : Value}
      (h : nested.fresh S rec f.type = .ok v) :
      Merged S nested rec (.repeated f) (.repeated vs) (.ok (), .repeated (vs ++ [v]))
  | entry {key : Scalar} {f : Field (FieldType Ref)} (entries : List (MapKey × Value))
      {bytes : Bytes} {k : MapKey} {v : Value} (h : nested.entry key f.type bytes = .ok (k, v)) :
      Merged S nested rec (.map key f) (.map entries) (.ok (), .map (MapEntries.insert k v entries))
  | member {name : String} {members : List (Field (FieldType Ref))} {f : Field (FieldType Ref)}
      {old v : Value} {outcome : Except DecodeError Unit}
      (hf : members.find? (·.number = rec.number) = some f)
      (h : nested.onto S rec old f.type = (outcome, v)) :
      Merged S nested rec (.oneof name members) (.oneof (some (rec.number, old)))
        (outcome, .oneof (some (rec.number, v)))
  | replaced {name : String} {members : List (Field (FieldType Ref))} {f : Field (FieldType Ref)}
      (old : Option (Nat × Value)) {v : Value}
      (hf : members.find? (·.number = rec.number) = some f)
      (h : nested.fresh S rec f.type = .ok v) :
      Merged S nested rec (.oneof name members) (.oneof old) (.ok (), .oneof (some (rec.number, v)))

variable {S : Schema Ref} {nested : Nested Ref} {rec : Record}

theorem Slot.merged_replace {name : String} {members : List (Field (FieldType Ref))}
    {f : Field (FieldType Ref)} (hf : members.find? (·.number = rec.number) = some f)
    (old : Option (Nat × Value)) :
    Slot.Merged S nested rec (.oneof name members) (.oneof old)
      (Slot.mergeRecord.replace S nested rec f old) := by
  rw [Slot.mergeRecord.replace]
  split
  · rename_i v hv
    exact .replaced old hf hv
  · exact .kept _ _ _

/-- What comes of a slot when a record is read into it. -/
theorem Slot.merged_mergeRecord (S : Schema Ref) (nested : Nested Ref) (rec : Record)
    (t : SlotType Ref) (s : Slot) :
    Slot.Merged S nested rec t s (Slot.mergeRecord S nested rec t s) := by
  -- The cases are those of the definition: one for each form of slot, then the outcomes.
  unfold Slot.mergeRecord
  split
  · split
    · exact .implicit _ _ _
    · exact .kept _ _ _
  · split
    · rename_i t ht
      split
      · rename_i x hx
        refine .optional ?_
        simp [ht, Nested.onto, hx]
      · exact .kept _ _ _
    · rename_i r hr
      refine .optional ?_
      rw [hr]
      rfl
  · exact .optional rfl
  · rename_i f vs
    split
    · rename_i t ht
      exact .scalars ht vs _ _
    · rename_i r hr
      split
      · rename_i v hv
        exact .element vs (hr ▸ hv)
      · exact .kept _ _ _
  · rename_i key f entries
    split
    · exact .kept _ _ _
    · split
      · rename_i k v hentry
        exact .entry entries hentry
      · exact .kept _ _ _
  · rename_i name members old
    split
    · exact .kept _ _ _
    · rename_i f hf
      split
      · rename_i number v
        split
        · rename_i hnumber
          subst hnumber
          exact .member hf rfl
        · exact Slot.merged_replace hf _
      · exact Slot.merged_replace hf _
  · exact .kept _ _ _

theorem Slot.HasType.member_of_find? {name : String} {members : List (Field (FieldType Ref))}
    {number : Nat} {v : Value} (distinct : (members.map (·.number)).Nodup)
    (typed : Slot.HasType S (.oneof name members) (.oneof (some (number, v))))
    {f : Field (FieldType Ref)} (hf : members.find? (·.number = number) = some f) :
    Value.HasType S f.type v := by
  cases typed with
  | @member _ _ g _ mem hv =>
    rw [find?_of_nodup distinct mem] at hf
    exact Option.some.inj hf ▸ hv

end Protobuf
