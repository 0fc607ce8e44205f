import Protobuf.Proofs.Binary.RoundTrip
import Protobuf.Proofs.Binary.Single

/-! # How deep a message that was read may be

A map entry that leaves out its value is read as one with a value of which nothing is
set, and no reader is opened for that value.  When it is a message, the message read is
therefore one deeper than the readers that read it; that is the only way for it to be.

* `Value.Readable`, `Slot.Readable`: what comes out of readers that go so deep.
* `Value.EmptyEntryAt`, `Slot.EmptyEntryAt`, `Message.EmptyEntryAt`: a path of readers that
  ends at a map entry whose value is a message of which nothing is set.
* `bounded_nestedWithin`: what readers give is readable.
* `Message.depth_le_iff_of_decode`: what was decoded is deeper than its readers exactly if
  one of these paths is as long as readers go.
* `Message.decode_encode_of_decode`: what was decoded is decoded again once written, but for these
  paths.
-/

namespace Protobuf

variable {Ref : Type}

mutual

/-- A value that comes out of at most `n` readers, one inside the other. -/
inductive Value.Readable (S : Schema Ref) : Nat → FieldType Ref → Value → Prop
  | plain (n : Nat) (t : PlainType) (x : t.wire.Carrier) :
      Value.Readable S n (.plain t) (.scalar t.wire x)
  | message {n : Nat} {r : Ref} {slots : List Slot} (length : (S r).slots.length = slots.length)
      (h : ∀ {t s}, (t, s) ∈ (S r).slots.zip slots → Slot.Readable S n t s) :
      Value.Readable S (n + 1) (.message r) (.message slots)

inductive Slot.Readable (S : Schema Ref) : Nat → SlotType Ref → Slot → Prop
  | implicit (n : Nat) (f : Field PlainType) (v : f.type.wire.Carrier) :
      Slot.Readable S n (.implicit f) (.implicit f.type.wire v)
  | absent (n : Nat) (f : Field (FieldType Ref)) : Slot.Readable S n (.optional f) (.optional none)
  | present {n : Nat} {f : Field (FieldType Ref)} {v : Value} (h : Value.Readable S n f.type v) :
      Slot.Readable S n (.optional f) (.optional (some v))
  | repeated {n : Nat} {f : Field (FieldType Ref)} {vs : List Value}
      (h : ∀ v ∈ vs, Value.Readable S n f.type v) : Slot.Readable S n (.repeated f) (.repeated vs)
  | map {n : Nat} {key : Scalar} {f : Field (FieldType Ref)} {entries : List (MapKey × Value)}
      (h : ∀ e ∈ entries, Value.Entered S n f.type e.2) :
      Slot.Readable S n (.map key f) (.map entries)
  | unset (n : Nat) (name : String) (members : List (Field (FieldType Ref))) :
      Slot.Readable S n (.oneof name members) (.oneof none)
  | member {n : Nat} {name : String} {members : List (Field (FieldType Ref))}
      {f : Field (FieldType Ref)} {v : Value} (mem : f ∈ members)
      (h : Value.Readable S n f.type v) :
      Slot.Readable S n (.oneof name members) (.oneof (some (f.number, v)))

inductive Value.Entered (S : Schema Ref) : Nat → FieldType Ref → Value → Prop
  | read {n : Nat} {t : FieldType Ref} {v : Value} (h : Value.Readable S n t v) :
      Value.Entered S (n + 1) t v
  | omitted (n : Nat) (t : FieldType Ref) : Value.Entered S (n + 1) t (t.default S)

end

variable {S : Schema Ref} {nested : Nested Ref} {n : Nat}

theorem Slot.readable_default (n : Nat) (t : SlotType Ref) : Slot.Readable S n t t.default := by
  cases t with
  | implicit f => exact .implicit n f _
  | optional f => exact .absent n f
  | repeated f => exact .repeated (by simp)
  | map key f => exact .map (by simp)
  | oneof name members => exact .unset n name members

theorem Message.readable_default (n : Nat) (r : Ref) :
    List.Forall₂ (Slot.Readable S n) (S r).slots (S r).default := by
  rw [MessageType.default, List.forall₂_map_right_iff]
  exact List.forall₂_same.2 fun t _ => Slot.readable_default n t

theorem Value.readable_message_iff {r : Ref} {m : Message} :
    Value.Readable S (n + 1) (.message r) (.message m) ↔
      List.Forall₂ (Slot.Readable S n) (S r).slots m := by
  rw [List.forall₂_iff_zip]
  constructor
  · intro h
    cases h with
    | message length hslots => exact ⟨length, hslots⟩
  · rintro ⟨length, hslots⟩
    exact .message length hslots

/-- Readers of nested payloads that go at most `n` deep. -/
structure Nested.Bounded (S : Schema Ref) (nested : Nested Ref) (n : Nat) : Prop where
  merge : ∀ {r bytes m m'}, Value.Readable S n (.message r) (.message m) ∨ m = (S r).default →
    nested.merge r bytes m = (.ok (), m') → Value.Readable S n (.message r) (.message m')
  entry : ∀ {key t bytes k v}, nested.entry key t bytes = .ok (k, v) → Value.Entered S n t v

theorem Nested.Bounded.readable_mergeRecord (h : nested.Bounded S n) {rec : Record} {r : Ref}
    {m m' : Message} (hm : Value.Readable S n (.message r) (.message m) ∨ m = (S r).default)
    (hok : nested.mergeRecord rec r m = (.ok (), m')) :
    Value.Readable S n (.message r) (.message m') := by
  unfold Nested.mergeRecord at hok
  split at hok
  · exact h.merge hm hok
  · cases hok

theorem Nested.Bounded.readable_onto (h : nested.Bounded S n) {rec : Record} {t : FieldType Ref}
    {old v : Value} (hold : Value.Readable S n t old ∨ old = t.default S)
    (hok : nested.onto S rec old t = (.ok (), v)) : Value.Readable S n t v := by
  cases t with
  | plain t =>
    rw [Nested.onto] at hok
    split at hok
    · cases hok
      exact .plain n t _
    · cases hok
  | message r =>
    -- The old message is readable, or the default that stands in for it.
    have hm : Value.Readable S n (.message r) (.message (old.messageOr (S r).default)) ∨
        old.messageOr (S r).default = (S r).default := by
      rcases hold with hread | rfl
      · cases hread with
        | message length hslots => exact .inl (.message length hslots)
      · exact .inr rfl
    obtain ⟨houtcome, rfl⟩ := Prod.mk.inj hok
    exact h.readable_mergeRecord hm (Prod.ext houtcome rfl)

theorem Nested.Bounded.readable_fresh (h : nested.Bounded S n) {rec : Record} {t : FieldType Ref}
    {v : Value} (hok : nested.fresh S rec t = .ok v) : Value.Readable S n t v := by
  cases t with
  | plain t =>
    rw [Nested.fresh] at hok
    obtain ⟨x, -, rfl⟩ := map_eq_ok.1 hok
    exact .plain n t x
  | message r =>
    rw [Nested.fresh] at hok
    split at hok
    · rename_i m hmerge
      cases hok
      exact h.readable_mergeRecord (.inr rfl) hmerge
    · cases hok

/-! ## Slots and messages -/

theorem Slot.Readable.member_of_find? {name : String} {members : List (Field (FieldType Ref))}
    {number : Nat} {v : Value} (distinct : (members.map (·.number)).Nodup)
    (hs : Slot.Readable S n (.oneof name members) (.oneof (some (number, v))))
    {f : Field (FieldType Ref)} (hf : members.find? (·.number = number) = some f) :
    Value.Readable S n f.type v := by
  cases hs with
  | @member _ _ _ g _ mem hv =>
    rw [find?_of_nodup distinct mem] at hf
    exact Option.some.inj hf ▸ hv

theorem Slot.Readable.repeated_append {f : Field (FieldType Ref)} {vs ws : List Value}
    (hs : Slot.Readable S n (.repeated f) (.repeated vs)) (hws : ∀ v ∈ ws, Value.Readable S n f.type v) :
    Slot.Readable S n (.repeated f) (.repeated (vs ++ ws)) := by
  cases hs with
  | repeated hvs =>
    exact .repeated fun v hv => (List.mem_append.1 hv).elim (hvs v) (hws v)

theorem Nested.Bounded.readable_slot (h : nested.Bounded S n) {rec : Record} {t : SlotType Ref}
    {s s' : Slot} (distinct : t.numbers.Nodup) (hs : Slot.Readable S n t s)
    (hok : Slot.mergeRecord S nested rec t s = (.ok (), s')) : Slot.Readable S n t s' := by
  -- One case for each thing that merging a record may do to a slot.
  have hmerged := Slot.merged_mergeRecord S nested rec t s
  rw [hok] at hmerged
  cases hmerged with
  | kept => exact hs
  | implicit f s x => exact .implicit n f x
  | @optional f old v outcome hread =>
    refine .present (h.readable_onto ?_ hread)
    cases hs with
    | absent => exact .inr rfl
    | present hv => exact .inl hv
  | @scalars f t ht vs xs outcome =>
    refine hs.repeated_append fun v hv => ?_
    obtain ⟨x, -, rfl⟩ := List.mem_map.1 hv
    exact ht ▸ .plain n t x
  | element vs hread =>
    refine hs.repeated_append fun v hv => ?_
    rw [List.mem_singleton.1 hv]
    exact h.readable_fresh hread
  | @entry key f entries bytes k v hread =>
    cases hs with
    | map hentries =>
      refine .map fun e he => ?_
      rcases MapEntries.mem_insert he with rfl | he
      · exact h.entry hread
      · exact hentries e he
  | @member name members f old v outcome hf hread =>
    have hnumber : f.number = rec.number := by simpa using List.find?_some hf
    have hv := h.readable_onto (.inl (hs.member_of_find? distinct hf)) hread
    exact hnumber ▸ .member (List.mem_of_find?_eq_some hf) hv
  | @replaced name members f old v hf hread =>
    have hnumber : f.number = rec.number := by simpa using List.find?_some hf
    exact hnumber ▸ .member (List.mem_of_find?_eq_some hf) (h.readable_fresh hread)

theorem readable_mergeRecord (h : nested.Bounded S n) {rec : Record} {ts : List (SlotType Ref)}
    {ss ss' : List Slot} (wf : ∀ t ∈ ts, t.WellFormed)
    (hs : List.Forall₂ (Slot.Readable S n) ts ss)
    (hok : mergeRecord S nested rec ts ss = (.ok (), ss')) :
    List.Forall₂ (Slot.Readable S n) ts ss' := by
  induction hs generalizing ss' with
  | nil =>
    obtain ⟨-, rfl⟩ := Prod.mk.inj hok
    exact .nil
  | @cons t s ts ss hs hss ih =>
    rw [mergeRecord] at hok
    split at hok
    · obtain ⟨houtcome, rfl⟩ := Prod.mk.inj hok
      exact .cons (h.readable_slot (wf t (by simp)).distinct hs (Prod.ext houtcome rfl)) hss
    · obtain ⟨houtcome, rfl⟩ := Prod.mk.inj hok
      exact .cons hs (ih (fun t' ht' => wf t' (by simp [ht'])) (Prod.ext houtcome rfl))

theorem readable_entryStep (h : nested.Bounded S n) {key : Scalar}
    {t : FieldType Ref} {rec : Record} {entry entry' : key.Carrier × Value}
    (hentry : Value.Readable S n t entry.2 ∨ entry.2 = t.default S)
    (hok : entryStep S nested key t rec entry = (.ok (), entry')) :
    Value.Readable S n t entry'.2 ∨ entry'.2 = t.default S := by
  unfold entryStep at hok
  split at hok
  · split at hok
    · cases hok
      exact hentry
    · cases hok
  · split at hok
    · obtain ⟨houtcome, rfl⟩ := Prod.mk.inj hok
      exact .inl (h.readable_onto hentry (Prod.ext houtcome rfl))
    · obtain ⟨-, rfl⟩ := Prod.mk.inj hok
      exact hentry

theorem readable_forEach (h : nested.Bounded S n) (wf : S.WellFormed) {r : Ref} {bytes : Bytes}
    {m m' : Message} (hm : List.Forall₂ (Slot.Readable S n) (S r).slots m)
    (hok : Record.forEach (fun rec m => mergeRecord S nested rec (S r).slots m) bytes m =
      (.ok (), m')) : List.Forall₂ (Slot.Readable S n) (S r).slots m' :=
  Record.forEach_preserves_of_ok (P := fun m => List.Forall₂ (Slot.Readable S n) (S r).slots m)
    (fun _ _ _ hs hstep => readable_mergeRecord h (fun _ ht => (wf r).slot ht) hs hstep) bytes hm hok

/-- Readers give what comes out of so many readers. -/
theorem bounded_nestedWithin (wf : S.WellFormed) (levels : Nat) :
    (nestedWithin S levels).Bounded S levels := by
  induction levels with
  -- With no reader left nothing is read.
  | zero => exact ⟨fun _ hok => (by cases hok), fun hok => (by cases hok)⟩
  | succ levels ih =>
    refine ⟨fun {r bytes m m'} hm hok => ?_, fun {key t bytes k v} hok => ?_⟩
    · refine Value.readable_message_iff.2 (readable_forEach ih wf ?_ hok)
      rcases hm with hread | rfl
      · exact Value.readable_message_iff.1 hread
      · exact Message.readable_default levels r
    · rw [nestedWithin_succ_entry] at hok
      split at hok
      · rename_i k' v' hread
        cases hok
        -- An entry starts with the default for its value, which stays if no record sets it.
        have hvalue := Record.forEach_preserves_of_ok
          (P := fun e : key.Carrier × Value => Value.Readable S levels t e.2 ∨ e.2 = t.default S)
          (fun _ _ _ he hstep => readable_entryStep ih he hstep) bytes (.inr rfl) hread
        rcases hvalue with hvalue | rfl
        · exact .read hvalue
        · exact .omitted levels t
      · cases hok

/-! ## Paths to entries without a value -/

mutual

/-- A path of `n` readers into a value, the one for the value included, ends at a map entry
    whose value is a message of which nothing is set. -/
inductive Value.EmptyEntryAt (S : Schema Ref) : Nat → FieldType Ref → Value → Prop
  | message {n : Nat} {r : Ref} {slots : List Slot} {t : SlotType Ref} {s : Slot}
      (mem : (t, s) ∈ (S r).slots.zip slots) (h : Slot.EmptyEntryAt S n t s) :
      Value.EmptyEntryAt S (n + 1) (.message r) (.message slots)

inductive Slot.EmptyEntryAt (S : Schema Ref) : Nat → SlotType Ref → Slot → Prop
  | present {n : Nat} {f : Field (FieldType Ref)} {v : Value}
      (h : Value.EmptyEntryAt S n f.type v) :
      Slot.EmptyEntryAt S n (.optional f) (.optional (some v))
  | element {n : Nat} {f : Field (FieldType Ref)} {vs : List Value} {v : Value} (mem : v ∈ vs)
      (h : Value.EmptyEntryAt S n f.type v) : Slot.EmptyEntryAt S n (.repeated f) (.repeated vs)
  | member {n : Nat} {name : String} {members : List (Field (FieldType Ref))}
      {f : Field (FieldType Ref)} {v : Value} (mem : f ∈ members)
      (h : Value.EmptyEntryAt S n f.type v) :
      Slot.EmptyEntryAt S n (.oneof name members) (.oneof (some (f.number, v)))
  | value {n : Nat} {key : Scalar} {f : Field (FieldType Ref)} {entries : List (MapKey × Value)}
      {e : MapKey × Value} (mem : e ∈ entries) (h : Value.EmptyEntryAt S n f.type e.2) :
      Slot.EmptyEntryAt S (n + 1) (.map key f) (.map entries)
  | entry {key : Scalar} {f : Field (FieldType Ref)} {entries : List (MapKey × Value)} {k : MapKey}
      {r : Ref} (hf : f.type = .message r) (mem : (k, .message (S r).default) ∈ entries) :
      Slot.EmptyEntryAt S 1 (.map key f) (.map entries)

end

/-- A path of `n` readers into a message of type `r` ends at a map entry whose value is a
    message of which nothing is set. -/
def Message.EmptyEntryAt (S : Schema Ref) (n : Nat) (r : Ref) (m : Message) : Prop :=
  ∃ p ∈ (S r).slots.zip m, Slot.EmptyEntryAt S n p.1 p.2

theorem depth_le_of_mem_zip {ts : List (SlotType Ref)} {m : Message} {t : SlotType Ref} {s : Slot}
    (hp : (t, s) ∈ ts.zip m) : s.depth ≤ Message.depth m :=
  Message.depth_le_iff.1 (Nat.le_refl _) s (List.of_mem_zip hp).2

mutual

theorem Value.EmptyEntryAt.lt_depth {n : Nat} {t : FieldType Ref} {v : Value} :
    Value.EmptyEntryAt S n t v → n < v.depth
  | .message mem hslot => by
    have hlt := hslot.lt_depth
    have hle := depth_le_of_mem_zip mem
    rw [Value.depth_message]
    omega

theorem Slot.EmptyEntryAt.lt_depth {n : Nat} {t : SlotType Ref} {s : Slot} :
    Slot.EmptyEntryAt S n t s → n < s.depth
  | .present hv => hv.lt_depth
  | .element mem hv =>
    Nat.lt_of_lt_of_le hv.lt_depth (valuesDepth_le_iff.1 (Nat.le_refl _) _ mem)
  | .member _ hv => hv.lt_depth
  | .value mem hv =>
    Nat.lt_of_lt_of_le (Nat.succ_lt_succ hv.lt_depth)
      (entriesDepth_le_iff.1 (Nat.le_refl _) _ mem)
  | .entry _ mem => by
    have hle := entriesDepth_le_iff.1 (Nat.le_refl _) _ mem
    rw [Value.depth_message] at hle
    rw [Slot.depth]
    omega

end

theorem Message.EmptyEntryAt.lt_depth {r : Ref} {m : Message} (h : EmptyEntryAt S n r m) :
    n < depth m := by
  obtain ⟨⟨t, s⟩, hp, hslot⟩ := h
  exact Nat.lt_of_lt_of_le hslot.lt_depth (depth_le_of_mem_zip hp)

/-! ## Re-encoding -/

theorem Value.Entered.depth_le_or {key : Scalar} {f : Field (FieldType Ref)}
    {entries : List (MapKey × Value)} {e : MapKey × Value} (mem : e ∈ entries)
    (ih : ∀ k < n, ∀ t v, Value.Readable S k t v → v.depth ≤ k ∨ Value.EmptyEntryAt S k t v)
    (h : Value.Entered S n f.type e.2) :
    e.2.depth + 1 ≤ n ∨ Slot.EmptyEntryAt S n (.map key f) (.map entries) := by
  obtain ⟨k, v⟩ := e
  generalize ht : f.type = t at h
  cases h with
  | @read n _ _ hv =>
    rcases ih n (Nat.lt_succ_self n) _ _ hv with hle | hpath
    · exact .inl (Nat.succ_le_succ hle)
    · exact .inr (.value mem (ht ▸ hpath))
  | omitted n =>
    cases t with
    | plain t => exact .inl (Nat.succ_le_succ (Nat.zero_le n))
    | message r =>
      -- The default takes a reader that was never opened, which shows only if the entry took
      -- the last one.
      have hdepth : (Value.message (S r).default).depth = 1 := by
        rw [Value.depth_message, MessageType.default, Message.depth, slotsDepth_default]
      rcases Nat.eq_zero_or_pos n with rfl | hpos
      · exact .inr (.entry ht mem)
      · refine .inl ?_
        simp only [hdepth]
        omega

theorem Slot.Readable.depth_le_or {t : SlotType Ref} {s : Slot}
    (ih : ∀ k ≤ n, ∀ t v, Value.Readable S k t v → v.depth ≤ k ∨ Value.EmptyEntryAt S k t v)
    (h : Slot.Readable S n t s) : s.depth ≤ n ∨ Slot.EmptyEntryAt S n t s := by
  cases h with
  | implicit | absent | unset => exact .inl (by simp [Slot.depth])
  | present hv => exact (ih n (Nat.le_refl n) _ _ hv).imp id .present
  | member mem hv => exact (ih n (Nat.le_refl n) _ _ hv).imp id (.member mem)
  | @repeated n f vs hvs =>
    -- If no path goes through an element, no element is deeper than the readers.
    rw [Slot.depth, valuesDepth_le_iff]
    by_contra hnone
    obtain ⟨hdeep, hpath⟩ := not_or.1 hnone
    refine hdeep fun v hv => ?_
    exact (ih n (Nat.le_refl n) _ _ (hvs v hv)).resolve_right fun h => hpath (.element hv h)
  | @map n key f entries hentries =>
    rw [Slot.depth, entriesDepth_le_iff]
    by_contra hnone
    obtain ⟨hdeep, hpath⟩ := not_or.1 hnone
    refine hdeep fun e he => ?_
    exact (Value.Entered.depth_le_or he (fun k hk => ih k (Nat.le_of_lt hk))
      (hentries e he)).resolve_right hpath

theorem Message.depth_le_or {r : Ref} {m : Message}
    (ih : ∀ k ≤ n, ∀ t v, Value.Readable S k t v → v.depth ≤ k ∨ Value.EmptyEntryAt S k t v)
    (h : List.Forall₂ (Slot.Readable S n) (S r).slots m) :
    depth m ≤ n ∨ EmptyEntryAt S n r m := by
  rw [depth_le_iff]
  by_contra hnone
  obtain ⟨hdeep, hpath⟩ := not_or.1 hnone
  refine hdeep fun s hs => ?_
  obtain ⟨t, hp⟩ := exists_mem_zip h hs
  exact ((List.forall₂_zip h hp).depth_le_or ih).resolve_right fun hslot => hpath ⟨(t, s), hp, hslot⟩

theorem Value.Readable.depth_le_or (t : FieldType Ref) (v : Value) (h : Value.Readable S n t v) :
    v.depth ≤ n ∨ Value.EmptyEntryAt S n t v := by
  -- A message takes a reader and a map entry another, so what is inside comes out of one
  -- or two fewer: hence the strong induction.
  induction n using Nat.strongRecOn generalizing t v with
  | _ n ih =>
    cases h with
    | plain n t x => exact .inl (Nat.zero_le n)
    | @message n r slots length hslots =>
      rw [Value.depth_message]
      rcases Message.depth_le_or (fun k hk => ih k (Nat.lt_succ_of_le hk))
        (List.forall₂_iff_zip.2 ⟨length, hslots⟩) with hle | ⟨p, hp, hpath⟩
      · exact .inl (Nat.succ_le_succ hle)
      · exact .inr (.message hp hpath)

/-- What was decoded is no deeper than readers go, unless a path that is as long as they go
    ends at a map entry whose value is a message of which nothing is set. -/
theorem Message.depth_le_iff_of_decode (wf : S.WellFormed) {r : Ref} {bytes : Bytes} {m : Message}
    (h : decode S r bytes = .ok m) : depth m ≤ nestingLimit ↔ ¬EmptyEntryAt S nestingLimit r m := by
  constructor
  · intro hle hpath
    exact absurd hpath.lt_depth (Nat.not_lt.2 hle)
  · intro hpath
    rw [decode] at h
    split at h
    · rename_i m' hread
      cases h
      have hreadable := readable_forEach (bounded_nestedWithin wf nestingLimit) wf
        (readable_default nestingLimit r) hread
      exact (depth_le_or (fun _ _ => Value.Readable.depth_le_or) hreadable).resolve_right hpath
    · cases h

/-- A message that was read is read back once written, unless a path of a hundred readers ends at a
    map entry whose value is a message of which nothing is set.  Such an entry may have been read
    without its value; it is written with it, and the value takes one reader too many. -/
theorem Message.decode_encode_of_decode (wf : S.WellFormed) {r : Ref} {bytes : Bytes} {m : Message}
    (h : decode S r bytes = .ok m) (fits : (encode S r m).Addressable) :
    (¬EmptyEntryAt S nestingLimit r m → decode S r (encode S r m) = .ok m) ∧
      (EmptyEntryAt S nestingLimit r m →
        decode S r (encode S r m) = .error (.nestingLimit nestingLimit)) := by
  have hdepth := depth_le_iff_of_decode wf h
  rw [decode_encode_eq wf (hasType_decode wf h) fits]
  exact ⟨fun hpath => if_pos (hdepth.2 hpath), fun hpath => if_neg fun hle => hdepth.1 hle hpath⟩

end Protobuf
