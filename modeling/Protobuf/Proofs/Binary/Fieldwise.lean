import Protobuf.Proofs.Binary.Overlay

/-! # Merging field by field

The rule for each form of field when one message is merged into another, as a relation
between the old content, the new and what comes of them.

* `Value.Merges`, `Slot.Merges`, `Message.Merges`: the rules.
* `Slot.Merges.unique`: they leave no choice.
* `Message.merges_iff`: what they give is the one message laid over the other.
-/

namespace Protobuf

variable {Ref : Type}

mutual

inductive Value.Merges (S : Schema Ref) : FieldType Ref → (old new merged : Value) → Prop
  /-- A plain value takes the place of the old one. -/
  | plain (t : PlainType) (old new : Value) : Value.Merges S (.plain t) old new new
  /-- A message is merged field by field. -/
  | message {r : Ref} {old new merged : Message} (h : Slots.Merge S (S r).slots old new merged) :
      Value.Merges S (.message r) (.message old) (.message new) (.message merged)

/-- What comes of merging slots into those that are there. -/
inductive Slots.Merge (S : Schema Ref) : List (SlotType Ref) → (old new merged : List Slot) → Prop
  | nil : Slots.Merge S [] [] [] []
  | cons {t : SlotType Ref} {ts : List (SlotType Ref)} {old new merged : Slot}
      {olds news mergeds : List Slot} (first : Slot.Merges S t old new merged)
      (rest : Slots.Merge S ts olds news mergeds) :
      Slots.Merge S (t :: ts) (old :: olds) (new :: news) (merged :: mergeds)

inductive Slot.Merges (S : Schema Ref) : SlotType Ref → (old new merged : Slot) → Prop
  /-- The default counts as not set. -/
  | implicitKept (f : Field PlainType) (old : Slot) :
      Slot.Merges S (.implicit f) old (.implicit f.type.wire f.type.wire.default) old
  | implicitTaken (f : Field PlainType) (old : Slot) {v : f.type.wire.Carrier}
      (h : v ≠ f.type.wire.default) :
      Slot.Merges S (.implicit f) old (.implicit f.type.wire v) (.implicit f.type.wire v)
  | optionalKept (f : Field (FieldType Ref)) (old : Slot) :
      Slot.Merges S (.optional f) old (.optional none) old
  | optionalTaken (f : Field (FieldType Ref)) (new : Value) :
      Slot.Merges S (.optional f) (.optional none) (.optional (some new)) (.optional (some new))
  | optionalMerged {f : Field (FieldType Ref)} {old new merged : Value}
      (h : Value.Merges S f.type old new merged) :
      Slot.Merges S (.optional f) (.optional (some old)) (.optional (some new))
        (.optional (some merged))
  | repeated (f : Field (FieldType Ref)) (old new : List Value) :
      Slot.Merges S (.repeated f) (.repeated old) (.repeated new) (.repeated (old ++ new))
  /-- The entries of both, but of two with one key the new one alone. -/
  | map {key : Scalar} {f : Field (FieldType Ref)} {old new merged : List (MapKey × Value)}
      (sorted : MapEntries.Sorted merged)
      (h : ∀ e, e ∈ merged ↔ e ∈ new ∨ (e ∈ old ∧ e.1 ∉ new.map (·.1))) :
      Slot.Merges S (.map key f) (.map old) (.map new) (.map merged)
  | oneofKept (name : String) (members : List (Field (FieldType Ref))) (old : Slot) :
      Slot.Merges S (.oneof name members) old (.oneof none) old
  /-- A member that was not set before takes the place of whatever was. -/
  | oneofTaken {name : String} {members : List (Field (FieldType Ref))} {number : Nat}
      {old : Option (Nat × Value)} (new : Value) (h : ∀ v, old ≠ some (number, v)) :
      Slot.Merges S (.oneof name members) (.oneof old) (.oneof (some (number, new)))
        (.oneof (some (number, new)))
  | oneofMerged {name : String} {members : List (Field (FieldType Ref))}
      {f : Field (FieldType Ref)} {number : Nat} {old new merged : Value} (mem : f ∈ members)
      (hf : f.number = number) (h : Value.Merges S f.type old new merged) :
      Slot.Merges S (.oneof name members) (.oneof (some (number, old)))
        (.oneof (some (number, new))) (.oneof (some (number, merged)))

end

def Message.Merges (S : Schema Ref) (r : Ref) (old new merged : Message) : Prop :=
  Slots.Merge S (S r).slots old new merged

variable {S : Schema Ref}

/-! ## The rules leave no choice -/

mutual

theorem Value.Merges.unique (wf : S.WellFormed) {t : FieldType Ref} {old new a b : Value} :
    Value.Merges S t old new a → Value.Merges S t old new b → a = b
  | .plain _ _ _, .plain _ _ _ => rfl
  | .message h, .message h' => congrArg Value.message (h.unique wf (fun _ => (wf _).slot) h')

theorem Slots.Merge.unique (wf : S.WellFormed) {ts : List (SlotType Ref)} {old new a b : List Slot}
    (slots : ∀ t ∈ ts, t.WellFormed) :
    Slots.Merge S ts old new a → Slots.Merge S ts old new b → a = b
  | .nil, .nil => rfl
  | .cons first rest, .cons first' rest' =>
    congrArg₂ List.cons (first.unique wf (slots _ List.mem_cons_self) first')
      (rest.unique wf (fun t ht => slots t (List.mem_cons_of_mem _ ht)) rest')

theorem Slot.Merges.unique (wf : S.WellFormed) {t : SlotType Ref} {old new a b : Slot}
    (slot : t.WellFormed) : Slot.Merges S t old new a → Slot.Merges S t old new b → a = b
  | .implicitKept _ _, .implicitKept _ _ => rfl
  | .implicitKept _ _, .implicitTaken _ _ h => absurd rfl h
  | .implicitTaken _ _ h, .implicitKept _ _ => absurd rfl h
  | .implicitTaken _ _ _, .implicitTaken _ _ _ => rfl
  | .optionalKept _ _, .optionalKept _ _ => rfl
  | .optionalTaken _ _, .optionalTaken _ _ => rfl
  | .optionalMerged h, .optionalMerged h' =>
    congrArg (fun v => Slot.optional (some v)) (h.unique wf h')
  | .repeated _ _ _, .repeated _ _ _ => rfl
  | .map sorted h, .map sorted' h' =>
    congrArg Slot.map (sorted.eq_of_mem_iff sorted' fun e => (h e).trans (h' e).symm)
  | .oneofKept _ _ _, .oneofKept _ _ _ => rfl
  | .oneofTaken _ _, .oneofTaken _ _ => rfl
  | .oneofTaken _ h, .oneofMerged _ _ _ => absurd rfl (h _)
  | .oneofMerged _ _ _, .oneofTaken _ h => absurd rfl (h _)
  | .oneofMerged mem hf h, .oneofMerged mem' hf' h' => by
    -- The two members have one number, so they are one.
    have hsame := find?_of_nodup slot.distinct mem
    rw [hf, ← hf', find?_of_nodup slot.distinct mem'] at hsame
    cases hsame
    exact congrArg (fun v => Slot.oneof (some (_, v))) (h.unique wf h')

end

/-! ## What the rules give -/

theorem Slot.merges_overlay {t : SlotType Ref} {old new : Slot} (slot : t.WellFormed)
    (hold : Slot.HasType S t old) (hnew : Slot.HasType S t new)
    (ih : ∀ ft v w, w.depth ≤ new.depth → Value.HasType S ft v → Value.HasType S ft w →
      Value.Merges S ft v w (Value.overlay S ft v w)) :
    Slot.Merges S t old new (Slot.overlay S t old new) := by
  -- One case for each form of content that is new, and in it one for each that is there.
  cases hnew with
  | implicit f v =>
    rw [Slot.overlay]
    split
    · rename_i hdefault
      rw [hdefault]
      exact .implicitKept f old
    · rename_i hset
      exact .implicitTaken f old hset
  | absent f => cases hold <;> exact .optionalKept f _
  | @present f w hw =>
    cases hold with
    | absent =>
      rw [Slot.overlay, Option.getD_none, Value.overlay_default f.type w hw]
      exact .optionalTaken f w
    | @present _ v hv => exact .optionalMerged (ih f.type v w (Nat.le_refl _) hv hw)
  | @repeated f news _ =>
    cases hold with
    | @repeated _ olds _ => exact .repeated f olds news
  | @map key f news sorted _ _ =>
    cases hold with
    | @map _ _ olds holds _ _ =>
      exact .map (MapEntries.sorted_insertAll news holds)
        fun e => MapEntries.mem_insertAll_iff sorted.nodup_keys holds
  | unset name members => cases hold <;> exact .oneofKept name members _
  | @member name members f w mem hw =>
    have hfind := find?_of_nodup slot.distinct mem
    cases hold with
    | unset =>
      simp only [Slot.overlay, hfind]
      exact .oneofTaken w (by simp)
    | @member _ _ g v mem' hv =>
      simp only [Slot.overlay, hfind]
      split
      · -- The member that is set is the one that is merged into.
        rename_i hnumber
        have hsame := find?_of_nodup slot.distinct mem'
        rw [hnumber, hfind] at hsame
        cases hsame
        exact .oneofMerged mem rfl (ih f.type v w (Nat.le_refl _) hv hw)
      · rename_i hother
        exact .oneofTaken w fun u h => hother (congrArg Prod.fst (Option.some.inj h))

theorem Slots.merge_overlay {ts : List (SlotType Ref)} {olds news : List Slot}
    (slots : ∀ t ∈ ts, t.WellFormed) (holds : List.Forall₂ (Slot.HasType S) ts olds)
    (hnews : List.Forall₂ (Slot.HasType S) ts news)
    (ih : ∀ new ∈ news, ∀ ft v w, w.depth ≤ new.depth → Value.HasType S ft v →
      Value.HasType S ft w → Value.Merges S ft v w (Value.overlay S ft v w)) :
    Slots.Merge S ts olds news (overlaySlots S ts olds news) := by
  induction hnews generalizing olds with
  | nil =>
    cases holds
    exact .nil
  | @cons t new ts news hnew _ ihslots =>
    cases holds with
    | cons hold holds =>
      exact .cons (Slot.merges_overlay (slots t List.mem_cons_self) hold hnew
          (ih new List.mem_cons_self))
        (ihslots (fun t' ht' => slots t' (List.mem_cons_of_mem _ ht')) holds
          fun new' hnew' => ih new' (List.mem_cons_of_mem _ hnew'))

theorem Value.merges_overlay (wf : S.WellFormed) (t : FieldType Ref) (v w : Value)
    (hv : Value.HasType S t v) (hw : Value.HasType S t w) :
    Value.Merges S t v w (Value.overlay S t v w) := by
  -- Every value inside `w` is less deep than `w`, so the induction is on the depth.
  generalize hn : w.depth = n
  induction n using Nat.strongRecOn generalizing t v w with
  | _ n ih =>
    cases hw with
    | plain t x => exact .plain t v _
    | @message r new hnew =>
      obtain ⟨old, rfl, hold⟩ := hv.exists_message
      rw [Value.depth_message] at hn
      refine .message (Slots.merge_overlay (fun _ => (wf r).slot) hold hnew ?_)
      intro s hs ft v w hle hv hw
      have hdepth := Message.depth_le_iff.1 (Nat.le_refl (Message.depth new)) s hs
      exact ih w.depth (by omega) ft v w hv hw rfl

/-- What merging gives is the one message laid over the other, and nothing else. -/
theorem Message.merges_iff (wf : S.WellFormed) {r : Ref} {old new merged : Message}
    (hold : Message.HasType S r old) (hnew : Message.HasType S r new) :
    Message.Merges S r old new merged ↔ merged = Message.overlay S r old new := by
  have hrules : Message.Merges S r old new (Message.overlay S r old new) :=
    Slots.merge_overlay (fun _ => (wf r).slot) hold hnew
      fun _ _ ft v w _ => Value.merges_overlay wf ft v w
  constructor
  · intro h
    exact Slots.Merge.unique wf (fun _ => (wf r).slot) h hrules
  · rintro rfl
    exact hrules

end Protobuf
