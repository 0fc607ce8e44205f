import Protobuf.Proofs.Binary.Preservation
import Protobuf.Proofs.Wire.Boundary

/-! # Bytes behind bytes

Merging bytes that stand behind others comes to merging the one and then the other.  So it
is for a message, and for one in it: two records for a field are one with both payloads,
even where the first of them takes the place of another member of a oneof.

* `mergeRecord_complete`: no record is taken whose payload is cut off.
* `Nested.Resumable`: readers of nested payloads that go on where they stopped.
* `Slot.mergeRecord_append`: two records for a message, and one.
* `resumable_nestedWithin`: all readers go on where they stopped.
* `Message.mergeWithin_append`, `Message.mergeWithin_records`: whole messages.
-/

namespace Protobuf

variable {Ref : Type} {S : Schema Ref} {nested : Nested Ref}

theorem Record.complete_of_content {r : Record} {w : WireType} {p : Payload w}
    (h : r.content w = .ok p) : r.Complete := by
  obtain ⟨number, wireType, payload⟩ := r
  rw [content] at h
  split at h
  · rename_i hw
    cases hw
    exact ⟨p, h⟩
  · cases h

theorem Record.complete_of_scalar {r : Record} {k : Scalar} {v : k.Carrier}
    (h : r.scalar k = .ok v) : r.Complete := by
  rw [scalar] at h
  split at h
  · rename_i p hp
    exact complete_of_content hp
  · cases h

theorem Record.complete_of_scalars {r : Record} {k : Scalar} (h : (r.scalars k).1 = .ok ()) :
    r.Complete := by
  rw [scalars] at h
  split at h
  · split at h
    · rename_i bytes hbytes
      exact complete_of_content hbytes
    · cases h
  · split at h
    · rename_i v hv
      exact complete_of_scalar hv
    · cases h

theorem Record.complete_of_skip {r : Record} (h : r.skip = .ok ()) : r.Complete := by
  rw [skip] at h
  split at h
  · rename_i p hp
    exact ⟨p, hp⟩
  · cases h

theorem Nested.mergeRecord_complete {rec : Record} {r : Ref} {m : Message}
    (h : (nested.mergeRecord rec r m).1 = .ok ()) : rec.Complete := by
  rw [Nested.mergeRecord] at h
  split at h
  · rename_i bytes hbytes
    exact Record.complete_of_content hbytes
  · cases h

theorem Nested.onto_complete {rec : Record} {old : Value} {t : FieldType Ref}
    (h : (nested.onto S rec old t).1 = .ok ()) : rec.Complete := by
  cases t with
  | plain t =>
    rw [Nested.onto] at h
    split at h
    · rename_i v hv
      exact Record.complete_of_scalar hv
    · cases h
  | message r => exact mergeRecord_complete h

theorem Nested.fresh_complete {rec : Record} {t : FieldType Ref} {v : Value}
    (h : nested.fresh S rec t = .ok v) : rec.Complete := by
  cases t with
  | plain t =>
    rw [Nested.fresh] at h
    obtain ⟨x, hscalar, -⟩ := map_eq_ok.1 h
    exact Record.complete_of_scalar hscalar
  | message r =>
    rw [Nested.fresh] at h
    split at h
    · rename_i m hmerge
      exact mergeRecord_complete (congrArg Prod.fst hmerge)
    · cases h

theorem Slot.mergeRecord_replace_complete {rec : Record} {f : Field (FieldType Ref)}
    {old : Option (Nat × Value)} (h : (mergeRecord.replace S nested rec f old).1 = .ok ()) :
    rec.Complete := by
  rw [mergeRecord.replace] at h
  split at h
  · rename_i v hv
    exact Nested.fresh_complete hv
  · cases h

theorem Slot.mergeRecord_complete {rec : Record} {t : SlotType Ref} {s : Slot}
    (h : (mergeRecord S nested rec t s).1 = .ok ()) : rec.Complete := by
  -- The cases are those of the definition.
  unfold mergeRecord at h
  split at h
  · split at h
    · rename_i v hv
      exact Record.complete_of_scalar hv
    · cases h
  · split at h
    · split at h
      · rename_i v hv
        exact Record.complete_of_scalar hv
      · cases h
    · exact Nested.onto_complete h
  · exact Nested.onto_complete h
  · split at h
    · exact Record.complete_of_scalars h
    · split at h
      · rename_i v hv
        exact Nested.fresh_complete hv
      · cases h
  · split at h
    · cases h
    · rename_i bytes hbytes
      exact Record.complete_of_content hbytes
  · split at h
    · exact Record.complete_of_skip h
    · split at h
      · split at h
        · exact Nested.onto_complete h
        · exact mergeRecord_replace_complete h
      · exact mergeRecord_replace_complete h
  · exact Record.complete_of_skip h

/-- No record is taken whose payload is cut off. -/
theorem mergeRecord_complete {rec : Record} {ts : List (SlotType Ref)} {ss : List Slot}
    (h : (mergeRecord S nested rec ts ss).1 = .ok ()) : rec.Complete := by
  induction ts generalizing ss with
  | nil => exact Record.complete_of_skip h
  | cons t ts ih =>
    cases ss with
    | nil => exact Record.complete_of_skip h
    | cons s ss =>
      rw [mergeRecord] at h
      split at h
      · exact Slot.mergeRecord_complete h
      · exact ih h

/-- Readers of nested payloads that can be stopped and go on: what they do with later bytes
    depends on what the earlier ones led to, and whether they fail on the bytes alone. -/
structure Nested.Resumable (S : Schema Ref) (nested : Nested Ref) : Prop extends
    nested.Typed S where
  append : ∀ {r x m m₁}, nested.merge r x m = (.ok (), m₁) →
    ∀ y, nested.merge r (x ++ y) m = nested.merge r y m₁
  outcome : ∀ {r} x {m}, Message.HasType S r m →
    (nested.merge r x m).1 = (nested.merge r x (S r).default).1

/-! ## Whether a record fails -/

theorem Nested.Resumable.outcome_mergeRecord (h : nested.Resumable S) (rec : Record) {r : Ref}
    {m : Message} (typed : Message.HasType S r m) :
    (nested.mergeRecord rec r m).1 = (nested.mergeRecord rec r (S r).default).1 := by
  unfold Nested.mergeRecord
  split
  · exact h.outcome _ typed
  · rfl

theorem Nested.Resumable.outcome_onto (h : nested.Resumable S) (rec : Record) {t : FieldType Ref}
    {old : Value} (typed : Value.HasType S t old) :
    (nested.onto S rec old t).1 = (nested.onto S rec (t.default S) t).1 := by
  cases t with
  | plain t =>
    simp only [Nested.onto]
    split <;> rfl
  | message r =>
    obtain ⟨m, rfl, hm⟩ := typed.exists_message
    exact h.outcome_mergeRecord rec hm

/-- A value that is read anew fails as one does that is merged into the default. -/
theorem Nested.outcome_fresh (nested : Nested Ref) (rec : Record) (t : FieldType Ref) :
    (nested.fresh S rec t).map (fun _ => ()) = (nested.onto S rec (t.default S) t).1 := by
  cases t with
  | plain t =>
    simp only [Nested.fresh, Nested.onto]
    cases rec.scalar t.wire <;> rfl
  | message r =>
    simp only [Nested.fresh, Nested.onto, FieldType.default, Value.messageOr]
    split <;> rename_i hread <;> rw [hread] <;> rfl

theorem Slot.outcome_replace (rec : Record) (f : Field (FieldType Ref))
    (old : Option (Nat × Value)) :
    (mergeRecord.replace S nested rec f old).1 =
      (nested.onto S rec (f.type.default S) f.type).1 := by
  rw [← Nested.outcome_fresh, mergeRecord.replace]
  cases nested.fresh S rec f.type <;> rfl

/-- Whether a record for a slot fails does not depend on what the slot holds. -/
theorem Slot.outcome_mergeRecord (h : nested.Resumable S) (rec : Record) {t : SlotType Ref}
    {s : Slot} (distinct : t.numbers.Nodup) (typed : Slot.HasType S t s) :
    (mergeRecord S nested rec t s).1 = (mergeRecord S nested rec t t.default).1 := by
  cases typed with
  | implicit f v =>
    simp only [SlotType.default, mergeRecord]
    split <;> rfl
  | absent f => rfl
  | @present f v hv =>
    have honto := h.outcome_onto rec hv
    simp only [SlotType.default, mergeRecord]
    generalize f.type = t at hv honto ⊢
    cases t with
    | plain t =>
      rw [honto]
      simp only [Nested.onto]
      split <;> rfl
    | message r => exact honto
  | @repeated f vs hvs =>
    simp only [SlotType.default, mergeRecord]
    split
    · rfl
    · split <;> rfl
  | @map key f entries sorted keys values =>
    simp only [SlotType.default, mergeRecord]
    split
    · rfl
    · split <;> rfl
  | unset name members => rfl
  | @member name members g v mem hv =>
    simp only [SlotType.default, mergeRecord]
    split
    · rfl
    · rename_i f hf
      simp only [Slot.outcome_replace]
      split
      · -- The member that is set is one of the type of the field.
        rename_i hnumber
        rw [← hnumber, find?_of_nodup distinct mem] at hf
        cases hf
        exact h.outcome_onto rec hv
      · exact outcome_replace rec f _

theorem outcome_mergeRecord (h : nested.Resumable S) (rec : Record) {ts : List (SlotType Ref)}
    {ss : List Slot} (wf : ∀ t ∈ ts, t.WellFormed) (typed : List.Forall₂ (Slot.HasType S) ts ss) :
    (mergeRecord S nested rec ts ss).1 =
      (mergeRecord S nested rec ts (ts.map SlotType.default)).1 := by
  induction typed with
  | nil => rfl
  | @cons t s ts ss hs hss ih =>
    rw [List.map_cons, mergeRecord, mergeRecord]
    split
    · exact Slot.outcome_mergeRecord h rec (wf t List.mem_cons_self).distinct hs
    · exact ih fun t' ht' => wf t' (List.mem_cons_of_mem _ ht')

/-! ## Two records for a message -/

def Record.delimited (number : Nat) (payload : Bytes) : Record := ⟨number, .delimited, .ok payload⟩

/-- The slot holds a single message under this number: in a field, or as a member of a
    oneof. -/
inductive SlotType.HoldsMessage (number : Nat) (r : Ref) : SlotType Ref → Prop
  | optional {f : Field (FieldType Ref)} (hnumber : f.number = number) (ht : f.type = .message r) :
      SlotType.HoldsMessage number r (.optional f)
  | member {name : String} {members : List (Field (FieldType Ref))} {f : Field (FieldType Ref)}
      (mem : f ∈ members) (hnumber : f.number = number) (ht : f.type = .message r) :
      SlotType.HoldsMessage number r (.oneof name members)

theorem SlotType.HoldsMessage.mem_numbers {number : Nat} {r : Ref} {t : SlotType Ref}
    (h : t.HoldsMessage number r) : number ∈ t.numbers := by
  cases h with
  | optional hnumber ht => simp [numbers, hnumber]
  | member mem hnumber ht => exact hnumber ▸ List.mem_map_of_mem mem

def Nested.Accepts (S : Schema Ref) (nested : Nested Ref) (r : Ref) (payload : Bytes) : Prop :=
  ∃ m, Message.HasType S r m ∧ (nested.merge r payload m).1 = .ok ()

section

variable {number : Nat} {r : Ref} {x y : Bytes}

theorem Nested.Resumable.exists_merge (h : nested.Resumable S) (hx : nested.Accepts S r x)
    {m : Message} (typed : Message.HasType S r m) :
    ∃ m₁, Message.HasType S r m₁ ∧ nested.merge r x m = (.ok (), m₁) := by
  obtain ⟨m', typed', hok⟩ := hx
  rw [h.outcome x typed', ← h.outcome x typed] at hok
  exact ⟨_, h.merge r x typed, Prod.ext hok rfl⟩

/-- Two payloads read onto a message are read as one. -/
theorem Nested.Resumable.onto_append (h : nested.Resumable S) (number : Nat)
    (hx : nested.Accepts S r x) {old : Value} (typed : Value.HasType S (.message r) old) :
    ∃ v, Value.HasType S (.message r) v ∧
      nested.onto S (.delimited number x) old (.message r) = (.ok (), v) ∧
      ∀ y, nested.onto S (.delimited number y) v (.message r) =
        nested.onto S (.delimited number (x ++ y)) old (.message r) := by
  obtain ⟨m, rfl, hm⟩ := typed.exists_message
  obtain ⟨m₁, hm₁, hread⟩ := h.exists_merge hx hm
  refine ⟨.message m₁, .message hm₁, ?_, fun y => ?_⟩
  · simp [Nested.onto, Nested.mergeRecord, Record.delimited, Value.messageOr, hread]
  · simp [Nested.onto, Nested.mergeRecord, Record.delimited, Value.messageOr, h.append hread y]

theorem Nested.Resumable.onto_ok (h : nested.Resumable S) (number : Nat)
    (hx : nested.Accepts S r x) {m : Message} (typed : Message.HasType S r m) :
    (nested.onto S (.delimited number x) (.message m) (.message r)).1 = .ok () := by
  obtain ⟨m₁, -, hread⟩ := h.exists_merge hx typed
  simp [Nested.onto, Nested.mergeRecord, Record.delimited, Value.messageOr, hread]

theorem Nested.Resumable.fresh_eq (h : nested.Resumable S) (hx : nested.Accepts S r x) :
    nested.fresh S (.delimited number x) (.message r) =
      .ok (nested.onto S (.delimited number x) (.message (S r).default) (.message r)).2 := by
  obtain ⟨m₁, -, hread⟩ := h.exists_merge hx (Message.hasType_default S r)
  simp [Nested.fresh, Nested.onto, Nested.mergeRecord, Record.delimited, Value.messageOr, hread]

theorem Nested.Resumable.accepts_append (h : nested.Resumable S) (hx : nested.Accepts S r x)
    (hy : nested.Accepts S r y) : nested.Accepts S r (x ++ y) := by
  obtain ⟨m₁, hm₁, hread⟩ := h.exists_merge hx (Message.hasType_default S r)
  obtain ⟨m₂, -, hread₂⟩ := h.exists_merge hy hm₁
  exact ⟨_, Message.hasType_default S r, by rw [h.append hread y, hread₂]⟩

section

variable {name : String} {members : List (Field (FieldType Ref))} {f : Field (FieldType Ref)}

/-- A record for the member that is set is read onto it. -/
theorem Slot.mergeRecord_member (hf : members.find? (·.number = number) = some f)
    (ht : f.type = .message r) (v : Value) :
    mergeRecord S nested (.delimited number x) (.oneof name members) (.oneof (some (number, v))) =
      ((nested.onto S (.delimited number x) v (.message r)).1,
        .oneof (some (number, (nested.onto S (.delimited number x) v (.message r)).2))) := by
  have hf' : members.find? (·.number = (Record.delimited number x).number) = some f := hf
  simp only [mergeRecord, hf', ht]
  exact if_pos rfl

/-- A record for a member that is not set is read onto the default, and takes the place of
    the member that was. -/
theorem Nested.Resumable.mergeRecord_other (h : nested.Resumable S) (hx : nested.Accepts S r x)
    (hf : members.find? (·.number = number) = some f) (ht : f.type = .message r)
    {old : Option (Nat × Value)} (other : ∀ v, old ≠ some (number, v)) :
    Slot.mergeRecord S nested (.delimited number x) (.oneof name members) (.oneof old) =
      (.ok (), .oneof (some (number,
        (nested.onto S (.delimited number x) (.message (S r).default) (.message r)).2))) := by
  have hf' : members.find? (·.number = (Record.delimited number x).number) = some f := hf
  have hreplace : Slot.mergeRecord.replace S nested (.delimited number x) f old =
      (.ok (), .oneof (some (number,
        (nested.onto S (.delimited number x) (.message (S r).default) (.message r)).2))) := by
    rw [Slot.mergeRecord.replace, ht, h.fresh_eq hx]
    rfl
  simp only [Slot.mergeRecord, hf']
  split
  · rename_i number' v
    rw [if_neg fun hnumber => other v (by rw [hnumber]; rfl), hreplace]
  · exact hreplace

end

/-- Two records for a message in a slot come to one with both payloads. -/
theorem Slot.mergeRecord_append (h : nested.Resumable S) {t : SlotType Ref} (wf : t.WellFormed)
    (ht : t.HoldsMessage number r) {s : Slot} (typed : Slot.HasType S t s)
    (hx : nested.Accepts S r x) (hy : nested.Accepts S r y) :
    ∃ s₁, mergeRecord S nested (.delimited number x) t s = (.ok (), s₁) ∧
      mergeRecord S nested (.delimited number y) t s₁ =
        mergeRecord S nested (.delimited number (x ++ y)) t s := by
  have hnew := h.onto_append number hx (Value.hasType_default S (.message r))
  cases ht with
  | @optional f hnumber ht =>
    cases typed with
    | absent =>
      obtain ⟨v, -, hfirst, hboth⟩ := hnew
      refine ⟨.optional (some v), ?_, ?_⟩
      · simp only [mergeRecord, ht]
        rw [FieldType.default] at hfirst
        rw [hfirst]
      · simp only [mergeRecord, ht, hboth y]
        rfl
    | @present _ old hold =>
      obtain ⟨v, -, hfirst, hboth⟩ := h.onto_append number hx (ht ▸ hold)
      exact ⟨.optional (some v), by simp [mergeRecord, ht, hfirst], by simp [mergeRecord, ht, hboth]⟩
  | @member name members f mem hnumber ht =>
    have hf := find?_of_nodup wf.distinct mem
    rw [hnumber] at hf
    obtain ⟨old, rfl⟩ : ∃ o, s = .oneof o := by cases typed <;> exact ⟨_, rfl⟩
    by_cases hset : ∃ v, old = some (number, v)
    · -- The member is set, and both records are merged into it.
      obtain ⟨v, rfl⟩ := hset
      have hv := typed.member_of_find? wf.distinct hf
      obtain ⟨v₁, -, hfirst, hboth⟩ := h.onto_append number hx (ht ▸ hv)
      refine ⟨.oneof (some (number, v₁)), ?_, ?_⟩
      · rw [Slot.mergeRecord_member hf ht, hfirst]
      · rw [Slot.mergeRecord_member hf ht, Slot.mergeRecord_member hf ht, hboth]
    · -- The first record takes the place of what was set, and the second finds it there.
      have hother : ∀ v, old ≠ some (number, v) := fun v hv => hset ⟨v, hv⟩
      have hall := h.accepts_append hx hy
      obtain ⟨v, -, hfirst, hboth⟩ := hnew
      rw [FieldType.default] at hfirst hboth
      refine ⟨.oneof (some (number, v)), ?_, ?_⟩
      · rw [h.mergeRecord_other hx hf ht hother, hfirst]
      · have hok := h.onto_ok number hall (Message.hasType_default S r)
        rw [h.mergeRecord_other hall hf ht hother, Slot.mergeRecord_member hf ht, hboth, hok]

/-! ## Messages -/

/-- Two records for a message in a message come to one with both payloads. -/
theorem mergeRecord_append (h : nested.Resumable S) {ts : List (SlotType Ref)} {ss : List Slot}
    (wf : ∀ t ∈ ts, t.WellFormed) (distinct : (ts.flatMap SlotType.numbers).Nodup)
    {t : SlotType Ref} (mem : t ∈ ts) (ht : t.HoldsMessage number r)
    (typed : List.Forall₂ (Slot.HasType S) ts ss) (hx : nested.Accepts S r x)
    (hy : nested.Accepts S r y) :
    ∃ ss₁, mergeRecord S nested (.delimited number x) ts ss = (.ok (), ss₁) ∧
      mergeRecord S nested (.delimited number y) ts ss₁ =
        mergeRecord S nested (.delimited number (x ++ y)) ts ss := by
  induction typed with
  | nil => cases mem
  | @cons t' s ts ss hs hss ih =>
    rw [List.flatMap_cons, List.nodup_append] at distinct
    obtain ⟨-, hrest, hdisjoint⟩ := distinct
    rcases List.mem_cons.1 mem with rfl | mem
    · obtain ⟨s₁, hfirst, hboth⟩ := Slot.mergeRecord_append h (wf t List.mem_cons_self) ht hs hx hy
      have hnumber : ∀ p, (Record.delimited number p).number ∈ t.numbers := fun _ => ht.mem_numbers
      refine ⟨s₁ :: ss, ?_, ?_⟩
      · rw [mergeRecord, if_pos (hnumber x), hfirst]
      · rw [mergeRecord, mergeRecord, if_pos (hnumber y), if_pos (hnumber (x ++ y)), hboth]
    · -- The number is that of a later slot, so it is none of the first.
      have hlater : number ∈ ts.flatMap SlotType.numbers :=
        List.mem_flatMap.2 ⟨t, mem, ht.mem_numbers⟩
      have hnumber : ∀ p, (Record.delimited number p).number ∉ t'.numbers :=
        fun _ hin => hdisjoint _ hin _ hlater rfl
      obtain ⟨ss₁, hfirst, hboth⟩ := ih (fun t ht => wf t (List.mem_cons_of_mem _ ht)) hrest mem
      refine ⟨s :: ss₁, ?_, ?_⟩
      · rw [mergeRecord, if_neg (hnumber x), hfirst]
      · rw [mergeRecord, mergeRecord, if_neg (hnumber y), if_neg (hnumber (x ++ y)), hboth]

end

def Message.mergeWithin (S : Schema Ref) (levels : Nat) (r : Ref) (bytes : Bytes) (m : Message) :
    Except DecodeError Unit × Message :=
  Record.forEach (fun rec m => mergeRecord S (nestedWithin S levels) rec (S r).slots m) bytes m

theorem Message.mergeWithin_nestingLimit (r : Ref) (bytes : Bytes) (m : Message) :
    mergeWithin S nestingLimit r bytes m = mergeBytes S r bytes m :=
  rfl

/-- Merging what stands behind other bytes goes on from where those led. -/
theorem Message.mergeWithin_append {levels : Nat} {r : Ref} {x : Bytes} {m m₁ : Message}
    (h : mergeWithin S levels r x m = (.ok (), m₁)) (y : Bytes) :
    mergeWithin S levels r (x ++ y) m = mergeWithin S levels r y m₁ :=
  Record.forEach_append_of_ok
    (fun _ _ _ hstep => mergeRecord_complete (congrArg Prod.fst hstep)) h y

/-- All readers of nested payloads go on where they stopped. -/
theorem resumable_nestedWithin (wf : S.WellFormed) (levels : Nat) :
    (nestedWithin S levels).Resumable S := by
  induction levels with
  | zero =>
    exact { typed_nestedWithin wf 0 with
      append := fun hmerge => by cases hmerge
      outcome := fun _ _ _ => rfl }
  | succ levels ih =>
    refine { typed_nestedWithin wf (levels + 1) with
      append := fun hmerge y => Message.mergeWithin_append hmerge y
      outcome := fun {r} x m typed => ?_ }
    have hslots : ∀ t ∈ (S r).slots, t.WellFormed := fun t ht => (wf r).slot ht
    exact Record.forEach_outcome (P := Message.HasType S r)
      (fun rec m hm => hasType_mergeRecord ih.toTyped rec hslots hm)
      (fun rec m m' hm hm' => (outcome_mergeRecord ih rec hslots hm).trans
        (outcome_mergeRecord ih rec hslots hm').symm)
      x typed (Message.hasType_default S r)

/-- Two records for a message in a message come to one with both payloads. -/
theorem Message.mergeWithin_records (wf : S.WellFormed) {levels number : Nat} {q r : Ref}
    {t : SlotType Ref} (mem : t ∈ (S q).slots) (ht : t.HoldsMessage number r) {x y : Bytes}
    (hx : (nestedWithin S levels).Accepts S r x) (hy : (nestedWithin S levels).Accepts S r y)
    {first second both : Bytes} (hfirst : Record.Spelled first (.delimited number x))
    (hsecond : Record.Spelled second (.delimited number y))
    (hboth : Record.Spelled both (.delimited number (x ++ y))) {m : Message}
    (typed : HasType S q m) :
    mergeWithin S levels q (first ++ second) m = mergeWithin S levels q both m := by
  obtain ⟨m₁, hone, htwo⟩ := mergeRecord_append (resumable_nestedWithin wf levels)
    (fun t ht => (wf q).slot ht) (wf q).distinct mem ht typed hx hy
  unfold mergeWithin
  rw [Record.forEach_append hfirst, hone, ← List.append_nil both, Record.forEach_append hboth,
    ← htwo, ← List.append_nil second]
  exact Record.forEach_append hsecond [] m₁

end Protobuf
