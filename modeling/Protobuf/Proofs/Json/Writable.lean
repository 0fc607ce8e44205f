import Protobuf.Proofs.Json.MapKeys
import Protobuf.Proofs.Json.Nesting
import Protobuf.Proofs.Time.LocalTime

/-! # Messages without refused values

A moment or a duration may be out of the range that has a text.  Reading JSON never makes
such a value: whatever is merged into a message of a type without refused values, and
wherever it fails, the message stays one.

* `Message.Refuses`: a moment or a duration that has no text.
* `Message.Writable`, `Value.Writable`, `Slot.Writable`: nothing is refused at any depth.
* `MemberReader.Writable`: a reader that makes only such values.
* `Slot.writable_mergeObject`, `writable_mergeSlots`: what one slot, and what all of them, keep.
* `Message.writable_mergeJson`, `Message.writable_ofJsonText`: reading JSON.
-/

namespace Protobuf

variable {Ref : Type} {S : Schema Ref}

/-- A moment or a duration that has no text, and what asking for it comes to. -/
inductive Message.Refuses (S : Schema Ref) (r : Ref) (m : Message) : EncodeFault → Prop
  | moment {e : EncodeError} (shape : (S r).shape = .timestamp)
      (h : (Timestamp.mk m.secondsAndNanos.1 m.secondsAndNanos.2).toText = .error e) :
      Refuses S r m (.refused e)
  | duration {e : EncodeFault} (shape : (S r).shape = .duration)
      (h : (Duration.mk m.secondsAndNanos.1 m.secondsAndNanos.2).toText = .error e) :
      Refuses S r m e

structure Message.Writable (S : Schema Ref) (r : Ref) (m : Message) : Prop where
  typed : HasType S r m
  accepted : ∀ {q : Ref} {inner : Message}, Within S r m q inner → ∀ e, ¬Refuses S q inner e

def Value.Writable (S : Schema Ref) : FieldType Ref → Value → Prop
  | .plain t, v => v.HasType S (.plain t)
  | .message r, .message m => Message.Writable S r m
  | .message _, .scalar _ _ => False

def Slot.Writable (S : Schema Ref) (t : SlotType Ref) (s : Slot) : Prop :=
  Slot.HasType S t s ∧ ∀ {u : FieldType Ref} {v : Value}, Slot.Holds t s u v → v.Writable S u

theorem Message.Refuses.shape_ne {r : Ref} {m : Message} {e : EncodeFault}
    (h : Refuses S r m e) : (S r).shape ≠ .object := by
  cases h with
  | moment shape _ => simp [shape]
  | duration shape _ => simp [shape]

/-- Only a duration overflows. -/
theorem Message.refuses_overflow_iff {r : Ref} {m : Message} :
    Refuses S r m .overflow ↔ (S r).shape = .duration ∧
      (Duration.mk m.secondsAndNanos.1 m.secondsAndNanos.2).Overflows := by
  constructor
  · intro h
    cases h with
    | duration shape h => exact ⟨shape, Duration.toText_eq_overflow_iff.1 h⟩
  · rintro ⟨shape, h⟩
    exact .duration shape (Duration.toText_eq_overflow_iff.2 h)

theorem Value.Writable.hasType {u : FieldType Ref} {v : Value} (h : v.Writable S u) :
    v.HasType S u := by
  cases u with
  | plain t => exact h
  | message r =>
    cases v with
    | message m => exact .message h.typed
    | scalar k x => exact h.elim

/-- Nothing in a message is refused if nothing in its slots is, and neither is the message
    itself. -/
theorem Message.writable_iff {r : Ref} {m : Message} (wf : (S r).Coherent) :
    Writable S r m ↔
      (∀ e, ¬Refuses S r m e) ∧ List.Forall₂ (Slot.Writable S) (S r).slots m := by
  constructor
  · rintro ⟨typed, accepted⟩
    refine ⟨accepted (.self r m), List.forall₂_iff_zip.2 ⟨typed.length_eq, fun {t s} mem => ?_⟩⟩
    have hslot := List.forall₂_zip typed mem
    refine ⟨hslot, fun {u v} holds => ?_⟩
    have hvalue := holds.hasType (wf.slot (List.of_mem_zip mem).1).distinct hslot
    cases hvalue with
    | plain t x => exact .plain t x
    | message hpart => exact ⟨hpart, fun within => accepted (.part mem holds within)⟩
  · rintro ⟨self, slots⟩
    refine ⟨slots.imp fun _ _ h => h.1, fun {q inner} within => ?_⟩
    cases within with
    | self => exact self
    | part mem holds rest => exact ((List.forall₂_zip slots mem).2 holds).accepted rest

/-! ## Slots of each form -/

namespace Slot

variable {f : Field (FieldType Ref)} {v : Value} {vs : List Value}

theorem writable_default (t : SlotType Ref) : Slot.Writable S t t.default := by
  refine ⟨Slot.hasType_default S t, fun {u v} holds => ?_⟩
  cases t with
  | repeated f => cases holds with | element _ h => cases h
  | map key f => cases holds with | entry _ _ h => cases h
  | implicit | optional | oneof => cases holds

theorem writable_implicit (f : Field PlainType) (x : f.type.wire.Carrier) :
    Slot.Writable S (.implicit f) (.implicit f.type.wire x) :=
  ⟨.implicit f x, fun holds => by cases holds⟩

theorem writable_present (h : v.Writable S f.type) :
    Slot.Writable S (.optional f) (.optional (some v)) :=
  ⟨.present h.hasType, fun holds => by cases holds; exact h⟩

theorem writable_repeated (h : ∀ v ∈ vs, v.Writable S f.type) :
    Slot.Writable S (.repeated f) (.repeated vs) :=
  ⟨.repeated fun v hv => (h v hv).hasType, fun holds => by
    cases holds with
    | element _ hv => exact h _ hv⟩

theorem writable_map {key : Scalar} {entries : List (MapKey × Value)}
    (sorted : MapEntries.Sorted entries) (keys : ∀ e ∈ entries, e.1.HasKind key)
    (h : ∀ e ∈ entries, e.2.Writable S f.type) : Slot.Writable S (.map key f) (.map entries) :=
  ⟨.map sorted keys fun e he => (h e he).hasType, fun holds => by
    cases holds with
    | entry _ _ he => exact h _ he⟩

theorem writable_member {name : String} {members : List (Field (FieldType Ref))}
    (distinct : (members.map (·.number)).Nodup) (mem : f ∈ members) (h : v.Writable S f.type) :
    Slot.Writable S (.oneof name members) (.oneof (some (f.number, v))) := by
  refine ⟨.member mem h.hasType, fun {u w} holds => ?_⟩
  generalize hs : Slot.oneof (some (f.number, v)) = s at holds
  cases holds with
  | @member _ _ g w hg =>
    simp only [Slot.oneof.injEq, Option.some.injEq, Prod.mk.injEq] at hs
    obtain ⟨hnumber, rfl⟩ := hs
    -- The members have distinct numbers, so there is one with this number.
    rwa [← List.inj_on_of_nodup_map distinct mem hg hnumber]

end Slot

theorem SlotType.default_of_implicitWire? {t : SlotType Ref} {k : Scalar}
    (h : t.implicitWire? = some k) : t.default = .implicit k k.default := by
  cases t with
  | implicit f =>
    cases h
    rfl
  | optional | repeated | map | oneof => cases h

theorem Message.writable_default (wf : S.Coherent) (shaped : S.WellShaped) (r : Ref) :
    Writable S r (S r).default := by
  refine (writable_iff (wf r)).2 ⟨fun e refused => ?_, ?_⟩
  · -- The first moment and the empty span have texts.
    have hparts := shaped r refused.shape_ne
    have hdefault : (S r).default = .ofSecondsAndNanos 0 0 := by
      obtain ⟨t, rest, hslots, hseconds, hrest⟩ := List.map_eq_cons_iff.1 hparts
      obtain ⟨u, rest', rfl, hnanos, hend⟩ := List.map_eq_cons_iff.1 hrest
      rw [List.map_eq_nil_iff.1 hend] at hslots
      rw [MessageType.default, hslots, List.map_cons, List.map_cons, List.map_nil,
        SlotType.default_of_implicitWire? hseconds, SlotType.default_of_implicitWire? hnanos]
      rfl
    rw [hdefault] at refused
    cases refused with
    | moment _ h =>
      rw [Timestamp.toText, if_pos (by decide)] at h
      cases h
    | duration _ h =>
      have hrange : (Duration.mk 0 0).InRange := by decide
      obtain ⟨text, htext, -⟩ := Duration.ofText_toText hrange
      exact absurd (htext.symm.trans h) (by simp)
  · rw [MessageType.default, List.forall₂_map_right_iff]
    exact List.forall₂_same.2 fun t _ => Slot.writable_default t

/-- A key of a kind with a range is an integer of the range. -/
theorem MapKey.exists_integer_of_ofText {k : Scalar} {text : String} {key : MapKey} {low high : Int}
    (hrange : range? k = some (low, high)) (h : ofText k text = .ok key) :
    ∃ n : Int, key = integer n ∧ low ≤ n ∧ n ≤ high := by
  unfold ofText at h
  split at h
  · cases hrange
  · simp only [hrange] at h
    split at h
    · rename_i n hread
      cases h
      obtain ⟨-, -, -, -, hlow, hhigh, -⟩ := Literal.integerWithin?_eq_some_iff.1 hread
      exact ⟨n, rfl, hlow, hhigh⟩
    · cases h

/-- A key that was read from a text is of its kind. -/
theorem MapKey.hasKind_of_ofText {k : Scalar} (hk : k.isKey) {text : String} {key : MapKey}
    (h : ofText k text = .ok key) : key.HasKind k := by
  cases k with
  | double | float | bytes => simp [Scalar.isKey] at hk
  | int32 | sint32 | sfixed32 =>
    obtain ⟨n, rfl, hlow, hhigh⟩ := exists_integer_of_ofText rfl h
    exact ⟨Int32.ofInt n, congrArg integer (Int32.toInt_ofInt_of_le (by omega) (by omega))⟩
  | int64 | sint64 | sfixed64 =>
    obtain ⟨n, rfl, hlow, hhigh⟩ := exists_integer_of_ofText rfl h
    exact ⟨Int64.ofInt n, congrArg integer (Int64.toInt_ofInt_of_le (by omega) (by omega))⟩
  | uint32 | fixed32 =>
    obtain ⟨n, rfl, hlow, hhigh⟩ := exists_integer_of_ofText rfl h
    refine ⟨UInt32.ofNat n.toNat, congrArg integer ?_⟩
    rw [UInt32.toNat_ofNat_of_lt' (by simp only [UInt32.size]; omega)]
    omega
  | uint64 | fixed64 =>
    obtain ⟨n, rfl, hlow, hhigh⟩ := exists_integer_of_ofText rfl h
    refine ⟨UInt64.ofNat n.toNat, congrArg integer ?_⟩
    rw [UInt64.toNat_ofNat_of_lt' (by simp only [UInt64.size]; omega)]
    omega
  | bool =>
    rw [ofText] at h
    split at h
    · cases h
      exact ⟨true, rfl⟩
    · split at h
      · cases h
        exact ⟨false, rfl⟩
      · cases h
  | string =>
    cases h
    exact ⟨text, rfl⟩

/-! ## What a reader of members makes -/

structure MemberReader.Writable (S : Schema Ref) (reader : MemberReader Ref) : Prop where
  merge : ∀ key {r : Ref} {m : Message}, Message.Writable S r m →
    Message.Writable S r (reader.merge key r m).2
  elements : ∀ {key : String} {r : Ref} {vs : List Value}, reader.elements key r = .ok vs →
    ∀ v ∈ vs, v.Writable S (.message r)
  entries : ∀ {key : String} {k : Scalar} {r : Ref} {es : List (MapKey × Value)},
    reader.entries key k r = .ok es →
      ∀ e ∈ es, (∃ text, MapKey.ofText k text = .ok e.1) ∧ e.2.Writable S (.message r)

section

variable {reader : MemberReader Ref} (readable : reader.Writable S) (wf : S.Coherent)
  (shaped : S.WellShaped)

include readable

theorem MemberReader.Writable.list {key : String} {v : Json} {u : FieldType Ref} {vs : List Value}
    (h : reader.list key v u = .ok vs) : ∀ v ∈ vs, v.Writable S u := by
  cases u with
  | plain t =>
    rw [MemberReader.list] at h
    obtain ⟨xs, -, rfl⟩ := map_eq_ok.1 h
    exact List.forall_mem_map.2 fun x _ => .plain t x
  | message r => exact readable.elements h

theorem MemberReader.Writable.entryList {key : String} {v : Json} {k : Scalar} {u : FieldType Ref}
    {es : List (MapKey × Value)} (h : reader.entryList key v k u = .ok es) :
    ∀ e ∈ es, (∃ text, MapKey.ofText k text = .ok e.1) ∧ e.2.Writable S u := by
  cases u with
  | plain t =>
    rw [MemberReader.entryList] at h
    obtain ⟨xs, hread, rfl⟩ := map_eq_ok.1 h
    rw [PlainType.entriesOfJson.eq_def] at hread
    split at hread
    · rw [List.forall_mem_map]
      intro x hx
      obtain ⟨member, -, hmember⟩ := exists_mem_of_forall₂ (readEach_eq_ok_iff.1 hread).flip hx
      exact ⟨⟨_, @MapEntries.key_of_entryOfJson _ k t.ofJson member x hmember⟩, .plain t x.2⟩
    · cases hread
  | message r => exact readable.entries h

include wf shaped

theorem MemberReader.Writable.fresh {key : String} {v : Json} {u : FieldType Ref} {x : Value}
    (h : reader.fresh S key v u = .ok x) : x.Writable S u := by
  cases u with
  | plain t =>
    rw [MemberReader.fresh] at h
    obtain ⟨y, -, rfl⟩ := map_eq_ok.1 h
    exact .plain t y
  | message r =>
    have hmerged := readable.merge key (Message.writable_default wf shaped r)
    rw [MemberReader.fresh] at h
    split at h
    · rename_i m hm
      cases h
      rwa [hm] at hmerged
    · cases h

theorem MemberReader.Writable.choose {ms : Json.Members} {name : String}
    {fs : List (Field (FieldType Ref))} {old choice : Option (Nat × Value)}
    (h : reader.choose S ms name fs old = .ok choice) :
    choice = old ∨ ∃ f ∈ fs, ∃ v : Value, choice = some (f.number, v) ∧ v.Writable S f.type := by
  induction fs generalizing old with
  | nil =>
    rw [MemberReader.choose] at h
    cases h
    exact .inl rfl
  | cons f rest ih =>
    have further : ∀ {old}, reader.choose S ms name rest old = .ok choice → choice = old ∨
        ∃ g ∈ f :: rest, ∃ v : Value, choice = some (g.number, v) ∧ v.Writable S g.type := by
      intro old h
      rcases ih h with hold | ⟨g, hg, hv⟩
      · exact .inl hold
      · exact .inr ⟨g, List.mem_cons_of_mem _ hg, hv⟩
    rw [MemberReader.choose] at h
    split at h
    · cases h
    · exact further h
    · split at h
      · cases h
      · split at h
        · cases h
        · rename_i v hv
          -- The member that is given is the choice, unless a later one is.
          rcases further h with rfl | hlater
          · exact .inr ⟨f, List.mem_cons_self, v, rfl, readable.fresh wf shaped hv⟩
          · exact .inr hlater

end

/-! ## Slots -/

section

variable {reader : MemberReader Ref} {ms : Json.Members} {s : Slot}

theorem writable_mergeNamed {τ : Type} {f : Field τ} {t : SlotType Ref}
    {use : String → Json → Except DecodeError Unit × Slot} (h : Slot.Writable S t s)
    (used : ∀ key v, Slot.Writable S t (use key v).2) :
    Slot.Writable S t (mergeNamed ms f s use).2 := by
  rw [mergeNamed]
  split
  · exact h
  · exact h
  · exact used _ _

namespace Slot

variable (readable : reader.Writable S) (wf : S.Coherent) (shaped : S.WellShaped)
  {f : Field (FieldType Ref)}

include readable

theorem writable_mergeRepeated {vs : List Value} (h : Slot.Writable S (.repeated f) (.repeated vs)) :
    Slot.Writable S (.repeated f) (mergeObject S reader ms (.repeated f) (.repeated vs)).2 := by
  refine writable_mergeNamed h fun key v => ?_
  split
  · rename_i new hnew
    refine writable_repeated fun v hv => ?_
    rcases List.mem_append.1 hv with hv | hv
    · exact h.2 (.element f hv)
    · exact readable.list hnew v hv
  · exact h

theorem writable_mergeMap {k : Scalar} (hk : k.isKey) {entries : List (MapKey × Value)}
    (h : Slot.Writable S (.map k f) (.map entries)) :
    Slot.Writable S (.map k f) (mergeObject S reader ms (.map k f) (.map entries)).2 := by
  obtain ⟨sorted, keys⟩ : MapEntries.Sorted entries ∧ ∀ e ∈ entries, e.1.HasKind k := by
    cases h.1 with
    | map sorted keys _ => exact ⟨sorted, keys⟩
  refine writable_mergeNamed h fun key v => ?_
  split
  · rename_i new hnew
    have each := readable.entryList hnew
    have kept : ∀ e ∈ MapEntries.insertAll new entries, e ∈ new ∨ e ∈ entries := fun e he =>
      ((MapEntries.mem_insertAll_iff_last sorted).1 he).imp
        (fun ⟨before, after, hsplit, _⟩ => hsplit ▸ by simp) And.left
    refine writable_map (MapEntries.sorted_insertAll new sorted) (fun e he => ?_) fun e he => ?_
    · rcases kept e he with he | he
      · obtain ⟨text, htext⟩ := (each e he).1
        exact MapKey.hasKind_of_ofText hk htext
      · exact keys e he
    · rcases kept e he with he | he
      · exact (each e he).2
      · exact h.2 (.entry k f he)
  · exact h

include wf shaped

theorem writable_mergeOptional {old : Option Value}
    (h : Slot.Writable S (.optional f) (.optional old)) :
    Slot.Writable S (.optional f) (mergeObject S reader ms (.optional f) (.optional old)).2 := by
  refine writable_mergeNamed h fun key v => ?_
  obtain ⟨number, protoName, jsonName, type⟩ := f
  cases type with
  | plain t =>
    dsimp only
    split
    · exact writable_present (.plain t _)
    · exact h
  | message r =>
    -- What is merged into is the message that is there, or one of which nothing is set.
    have hold : Message.Writable S r
        ((old.map (·.messageOr (S r).default)).getD (S r).default) := by
      cases old with
      | none => exact Message.writable_default wf shaped r
      | some v =>
        have hv := h.2 (.optional _ v)
        obtain ⟨m, rfl, -⟩ := hv.hasType.exists_message
        exact hv
    exact writable_present (readable.merge key hold)

theorem writable_mergeOneof {name : String} {fs : List (Field (FieldType Ref))}
    (distinct : (fs.map (·.number)).Nodup) {old : Option (Nat × Value)}
    (h : Slot.Writable S (.oneof name fs) (.oneof old)) :
    Slot.Writable S (.oneof name fs) (mergeObject S reader ms (.oneof name fs) (.oneof old)).2 := by
  rw [mergeObject]
  split
  · rename_i choice hchoice
    obtain hnone | ⟨f, hf, v, hv, hwritable⟩ := readable.choose wf shaped hchoice
    · cases hnone
    · cases hv
      exact writable_member distinct hf hwritable
  · exact h
  · exact h

theorem writable_mergeObject {t : SlotType Ref} (twf : t.Coherent) (h : Slot.Writable S t s) :
    Slot.Writable S t (s.mergeObject S reader ms t).2 := by
  have typed := h.1
  cases typed with
  | implicit f x =>
    refine writable_mergeNamed h fun key v => ?_
    split
    · exact writable_implicit f _
    · exact h
  | absent f => exact writable_mergeOptional readable wf shaped h
  | present _ => exact writable_mergeOptional readable wf shaped h
  | repeated _ => exact writable_mergeRepeated readable h
  | map _ _ _ => exact writable_mergeMap readable twf.keys h
  | unset name members => exact writable_mergeOneof readable wf shaped twf.distinct h
  | member _ _ => exact writable_mergeOneof readable wf shaped twf.distinct h

end Slot

theorem writable_mergeSlots (readable : reader.Writable S) (wf : S.Coherent)
    (shaped : S.WellShaped) {ts : List (SlotType Ref)} (twf : ∀ t ∈ ts, t.Coherent)
    {m : Message} (h : List.Forall₂ (Slot.Writable S) ts m) :
    List.Forall₂ (Slot.Writable S) ts (mergeSlots S reader ms ts m).2 := by
  induction h with
  | nil => exact .nil
  | @cons t s ts ss hslot hrest ih =>
    have hmerged : Slot.Writable S t (s.mergeObject S reader ms t).2 :=
      Slot.writable_mergeObject readable wf shaped (twf t (by simp)) hslot
    rw [mergeSlots]
    split
    · rename_i heq
      rw [heq] at hmerged
      exact .cons hmerged hrest
    · rename_i heq
      rw [heq] at hmerged
      exact .cons hmerged (ih fun t ht => twf t (by simp [ht]))

end

/-! ## Reading JSON -/

def Json.MergesWritable (S : Schema Ref) (v : Json) : Prop :=
  ∀ {r : Ref} {m : Message}, Message.Writable S r m → Message.Writable S r (v.mergeInto S r m).2

theorem Message.writable_ofSecondsAndNanos {r : Ref} (wf : (S r).Coherent)
    (parts : (S r).slots.map SlotType.implicitWire? = [some .int64, some .int32])
    {seconds : Int64} {nanos : Int32} (h : ∀ e, ¬Refuses S r (.ofSecondsAndNanos seconds nanos) e) :
    Writable S r (.ofSecondsAndNanos seconds nanos) := by
  refine (writable_iff wf).2 ⟨h, ?_⟩
  have of_wire : ∀ {t : SlotType Ref} {k : Scalar} (x : k.Carrier), t.implicitWire? = some k →
      Slot.Writable S t (.implicit k x) := by
    intro t k x hwire
    cases t with
    | implicit f =>
      cases hwire
      exact Slot.writable_implicit f x
    | optional | repeated | map | oneof => cases hwire
  obtain ⟨t, rest, hslots, hseconds, hrest⟩ := List.map_eq_cons_iff.1 parts
  obtain ⟨u, rest', rfl, hnanos, hend⟩ := List.map_eq_cons_iff.1 hrest
  rw [hslots, List.map_eq_nil_iff.1 hend]
  exact .cons (of_wire (k := .int64) seconds hseconds)
    (.cons (of_wire (k := .int32) nanos hnanos) .nil)

/-- A text that is merged into a moment or a duration was in range. -/
theorem writable_mergeText (wf : S.Coherent) (shaped : S.WellShaped) {r : Ref} {m : Message}
    (h : Message.Writable S r m) (s : String) :
    Message.Writable S r (mergeText (S r).shape s m).2 := by
  cases hshape : (S r).shape with
  | object => exact h
  | timestamp =>
    rw [mergeText]
    split
    · rename_i t ht
      refine Message.writable_ofSecondsAndNanos (wf r) (shaped r (by simp [hshape]))
        fun e refused => ?_
      cases refused with
      | moment _ hfail =>
        obtain ⟨text, htext⟩ := (Timestamp.exists_toText_iff t).2 (Timestamp.inRange_of_ofText ht)
        exact absurd (htext.symm.trans hfail) (by simp)
      | duration shape _ => simp [hshape] at shape
    · exact h
  | duration =>
    rw [mergeText]
    split
    · rename_i d hd
      refine Message.writable_ofSecondsAndNanos (wf r) (shaped r (by simp [hshape]))
        fun e refused => ?_
      cases refused with
      | moment shape _ => simp [hshape] at shape
      | duration _ hfail =>
        obtain ⟨text, htext, -⟩ := Duration.ofText_toText (Duration.inRange_of_ofText hd)
        exact absurd (htext.symm.trans hfail) (by simp)
    · exact h

section

variable (wf : S.Coherent) (shaped : S.WellShaped)

include wf shaped

theorem Json.writable_messages {items : List Json} (h : ∀ v ∈ items, v.MergesWritable S) {r : Ref}
    {vs : List Value} (hread : messages S items r = .ok vs) :
    ∀ v ∈ vs, v.Writable S (.message r) := by
  induction items generalizing vs with
  | nil =>
    cases hread
    simp
  | cons item rest ih =>
    have hitem := h item (by simp) (Message.writable_default wf shaped r)
    rw [messages, consMessage.eq_def] at hread
    split at hread
    · cases hread
    · rename_i m hm
      rw [hm] at hitem
      obtain ⟨ws, hrest, rfl⟩ := map_eq_ok.1 hread
      exact List.forall_mem_cons.2 ⟨hitem, ih (fun v hv => h v (by simp [hv])) hrest⟩

theorem Json.writable_messageEntries {ms : Members} (h : ∀ e ∈ ms, e.2.MergesWritable S)
    {k : Scalar} {r : Ref} {es : List (MapKey × Value)}
    (hread : messageEntries S ms k r = .ok es) :
    ∀ e ∈ es, (∃ text, MapKey.ofText k text = .ok e.1) ∧ e.2.Writable S (.message r) := by
  induction ms generalizing es with
  | nil =>
    cases hread
    simp
  | cons member rest ih =>
    obtain ⟨name, v⟩ := member
    have hvalue := h (name, v) (by simp) (Message.writable_default wf shaped r)
    rw [messageEntries, consEntry.eq_def] at hread
    split at hread
    · cases hread
    · cases hread
    · rename_i key m hkey hm
      rw [hm] at hvalue
      obtain ⟨others, hrest, rfl⟩ := map_eq_ok.1 hread
      exact List.forall_mem_cons.2
        ⟨⟨⟨name, hkey⟩, hvalue⟩, ih (fun e he => h e (by simp [he])) hrest⟩

variable {ms : Json.Members} (h : ∀ e ∈ ms, ∀ part : Json, part.PartOf e.2 → part.MergesWritable S)

include h

omit wf shaped in
theorem Json.writable_mergeMember {key : String} {r : Ref} {m : Message}
    (hm : Message.Writable S r m) : Message.Writable S r (mergeMember S ms key r m).2 := by
  rw [mergeMember_eq]
  cases hfind : ms.find? key with
  | none => exact hm
  | some v => exact h _ (Members.mem_of_find? hfind) v (.self v) hm

theorem Json.writable_memberElements {key : String} {r : Ref} {vs : List Value}
    (hread : memberElements S ms key r = .ok vs) : ∀ v ∈ vs, v.Writable S (.message r) := by
  rw [memberElements_eq] at hread
  cases hfind : ms.find? key with
  | none =>
    rw [hfind] at hread
    cases hread
    simp
  | some v =>
    rw [hfind, Option.elim_some, elements.eq_def] at hread
    split at hread
    · refine writable_messages wf shaped (fun v hv => ?_) hread
      exact h _ (Members.mem_of_find? hfind) v (.item hv (.self v))
    · cases hread

theorem Json.writable_memberEntries {key : String} {k : Scalar} {r : Ref}
    {es : List (MapKey × Value)} (hread : memberEntries S ms key k r = .ok es) :
    ∀ e ∈ es, (∃ text, MapKey.ofText k text = .ok e.1) ∧ e.2.Writable S (.message r) := by
  rw [memberEntries_eq] at hread
  cases hfind : ms.find? key with
  | none =>
    rw [hfind] at hread
    cases hread
    simp
  | some v =>
    rw [hfind, Option.elim_some, entries.eq_def] at hread
    split at hread
    · exact writable_messageEntries wf shaped
        (fun e he => h _ (Members.mem_of_find? hfind) e.2 (.member he (.self e.2))) hread
    · cases hread

end

theorem Json.mergesWritable_object (wf : S.Coherent) (shaped : S.WellShaped) {members : Members}
    (h : ∀ e ∈ members, ∀ part : Json, part.PartOf e.2 → part.MergesWritable S) :
    (Json.object members).MergesWritable S := by
  intro r m hm
  rw [mergeInto]
  split
  · rename_i hshape
    obtain ⟨-, slots⟩ := (Message.writable_iff (wf r)).1 hm
    have reader : MemberReader.Writable S (.ofMembers S members) :=
      ⟨fun key {r m} hm => writable_mergeMember h hm,
        fun {key r vs} hread => writable_memberElements wf shaped h hread,
        fun {key k r es} hread => writable_memberEntries wf shaped h hread⟩
    refine (Message.writable_iff (wf r)).2 ⟨fun e refused => refused.shape_ne hshape, ?_⟩
    exact writable_mergeSlots reader wf shaped (fun t ht => (wf r).slot ht) slots
  · exact hm

/-- A part of a value is merged while the value is, so the induction is on all parts at once. -/
theorem Json.PartOf.mergesWritable (wf : S.Coherent) (shaped : S.WellShaped) {v : Json} :
    ∀ {part : Json}, part.PartOf v → part.MergesWritable S := by
  induction v using Json.induction with
  | null | bool | number =>
    rintro _ ⟨⟩
    exact fun hm => hm
  | string s =>
    rintro _ ⟨⟩
    exact fun hm => writable_mergeText wf shaped hm s
  | array items ih =>
    intro part hpart
    cases hpart with
    | self => exact fun hm => hm
    | item mem rest => exact ih _ mem rest
  | object members ih =>
    intro part hpart
    cases hpart with
    | self => exact mergesWritable_object wf shaped fun e he part => ih e he
    | member mem rest => exact ih _ mem rest

/-- Whatever value is merged into a message without refused values, and wherever it fails, the
    message stays one. -/
theorem Message.writable_mergeJson (wf : S.Coherent) (shaped : S.WellShaped) (v : Json) :
    v.MergesWritable S :=
  (Json.PartOf.self v).mergesWritable wf shaped

/-- In a message that was read from JSON text nothing is refused. -/
theorem Message.writable_ofJsonText (wf : S.Coherent) (shaped : S.WellShaped) {r : Ref}
    {text : String} {m : Message} (h : ofJsonText S r text = .ok m) : Writable S r m := by
  have hdefault := writable_default wf shaped r
  have hmerged : Writable S r (mergeJsonText S r text (S r).default).2 := by
    rw [mergeJsonText]
    split
    · exact hdefault
    · exact writable_mergeJson wf shaped _ hdefault
  rw [ofJsonText] at h
  split at h
  · rename_i heq
    cases h
    rwa [heq] at hmerged
  · cases h

end Protobuf
