import Protobuf.Proofs.Wire.Form
import Protobuf.Proofs.Wire.Moving
import Protobuf.Proofs.Wire.Stepwise

/-! # Packed or one by one

The values of a repeated field may be split into chunks at will, and each chunk may be
written as one record or as a record for each value: a reader that goes through the
records gathers the same list.  Of a record that is malformed it keeps the values that
stand before the fault.

* `Chunk`: values that are written together, and whether they share a record.
* `Cursor.collect`: going through all records onto one list.
* `Scalar.Run`: values one after the other, each in any of its forms.
* `Scalar.unpack_eq_ok_iff`, `Scalar.unpack_eq_error_iff`: a packed payload is read as far
  as it is a run.
* `Cursor.FailsBehind`: a record that cannot be read to its end, and the values before
  the fault.
* `Cursor.repeated_interchangeable`: both laws.
-/

namespace Protobuf

namespace Scalar

def Spells (k : Scalar) (bytes : Bytes) (v : k.Carrier) : Prop :=
  ∃ p, Payload.Spells k.wireType bytes p ∧ k.ofPayload p = .ok v

inductive Run (k : Scalar) : Bytes → List k.Carrier → Prop
  | nil : Run k [] []
  | cons {front rest : Bytes} {v : k.Carrier} {vs : List k.Carrier} (spelled : k.Spells front v)
    (further : Run k rest vs) : Run k (front ++ rest) (v :: vs)

def StartsNone (k : Scalar) (bytes : Bytes) : Prop :=
  ∀ front rest v, bytes = front ++ rest → ¬ k.Spells front v

variable {k : Scalar} {bytes front rest : Bytes} {v : k.Carrier} {vs : List k.Carrier}

theorem Spells.take (h : k.Spells bytes v) (rest : Bytes) :
    k.take (bytes ++ rest) = (.ok v, rest) := by
  obtain ⟨p, spelled, hv⟩ := h
  simp only [Scalar.take, spelled.take, hv]

theorem spells_of_take (h : k.take bytes = (.ok v, rest)) :
    ∃ front, bytes = front ++ rest ∧ k.Spells front v := by
  rw [Scalar.take] at h
  split at h
  · simp at h
  · rename_i p tail hp
    obtain ⟨hv, rfl⟩ := Prod.mk.inj h
    obtain ⟨front, hfront, spelled⟩ := Payload.spells_of_take hp
    exact ⟨front, hfront, p, spelled, hv⟩

theorem Spells.ne_nil (h : k.Spells bytes v) : bytes ≠ [] := by
  rintro rfl
  have := take_length_lt (h.take [])
  simp at this

theorem startsNone_iff : k.StartsNone bytes ↔ ∃ e, (k.take bytes).1 = .error e := by
  constructor
  · intro none
    cases htake : k.take bytes with
    | mk outcome rest =>
      cases outcome with
      | error e => exact ⟨e, rfl⟩
      | ok v =>
        obtain ⟨front, hfront, spelled⟩ := spells_of_take htake
        exact absurd spelled (none front rest v hfront)
  · rintro ⟨e, he⟩ front rest v rfl spelled
    rw [spelled.take] at he
    cases he

/-- A value in front is the first of what is unpacked. -/
theorem unpack_append (h : k.Spells front v) (rest : Bytes) :
    k.unpack (front ++ rest) = ((k.unpack rest).1, v :: (k.unpack rest).2) := by
  obtain ⟨b, bs, rfl⟩ := List.exists_cons_of_ne_nil h.ne_nil
  have htake := h.take rest
  rw [List.cons_append] at htake ⊢
  rw [unpack]
  split
  · simp_all
  · rename_i v' rest' heq
    rw [htake] at heq
    cases heq
    rfl

theorem Run.unpack_append (h : Run k front vs) (rest : Bytes) :
    k.unpack (front ++ rest) = ((k.unpack rest).1, vs ++ (k.unpack rest).2) := by
  induction h with
  | nil => simp
  | cons spelled further ih => rw [List.append_assoc, Scalar.unpack_append spelled, ih]; rfl

theorem unpack_of_startsNone (ne : bytes ≠ []) (none : k.StartsNone bytes) :
    ∃ e, k.unpack bytes = (.error e, []) := by
  obtain ⟨e, he⟩ := startsNone_iff.1 none
  obtain ⟨b, bs, rfl⟩ := List.exists_cons_of_ne_nil ne
  refine ⟨e, ?_⟩
  rw [unpack]
  split <;> simp_all

/-- Any payload is a run up to the point where it ends or does not go on with a value. -/
theorem exists_run (bytes : Bytes) :
    ∃ front bad, bytes = front ++ bad ∧ Run k front (k.unpack bytes).2 ∧
      ((bad = [] ∧ (k.unpack bytes).1 = .ok ()) ∨
        (bad ≠ [] ∧ k.StartsNone bad ∧ ∃ e, (k.unpack bytes).1 = .error e)) := by
  fun_induction k.unpack bytes with
  | case1 => exact ⟨[], [], rfl, .nil, .inl ⟨rfl, rfl⟩⟩
  | case2 b bs e rest htake =>
    have none : k.StartsNone (b :: bs) := startsNone_iff.2 ⟨e, by rw [htake]⟩
    exact ⟨[], b :: bs, rfl, .nil, .inr ⟨by simp, none, e, rfl⟩⟩
  | case3 b bs v rest htake outcome vs hvs ih =>
    rw [hvs] at ih
    obtain ⟨front, hfront, spelled⟩ := spells_of_take htake
    obtain ⟨more, bad, rfl, run, ends⟩ := ih
    exact ⟨front ++ more, bad, by rw [hfront, List.append_assoc], .cons spelled run, ends⟩

/-- A packed payload that is read to its end is a run of the values read. -/
theorem unpack_eq_ok_iff : k.unpack bytes = (.ok (), vs) ↔ Run k bytes vs := by
  constructor
  · intro h
    obtain ⟨front, bad, rfl, run, ⟨rfl, -⟩ | ⟨-, -, e, he⟩⟩ := exists_run (k := k) bytes
    · rw [h] at run
      rwa [List.append_nil]
    · rw [h] at he
      cases he
  · intro run
    have := run.unpack_append []
    simpa [unpack] using this

/-- A packed payload that is not read to its end is a run of the values kept, and then
    something that is no value. -/
theorem unpack_eq_error_iff :
    (∃ e, k.unpack bytes = (.error e, vs)) ↔
      ∃ front bad, bytes = front ++ bad ∧ Run k front vs ∧ bad ≠ [] ∧ k.StartsNone bad := by
  constructor
  · rintro ⟨e, h⟩
    obtain ⟨front, bad, hbytes, run, ⟨-, hok⟩ | ⟨ne, none, -⟩⟩ := exists_run (k := k) bytes
    · rw [h] at hok
      cases hok
    · rw [h] at run
      exact ⟨front, bad, hbytes, run, ne, none⟩
  · rintro ⟨front, bad, rfl, run, ne, none⟩
    obtain ⟨e, he⟩ := unpack_of_startsNone ne none
    exact ⟨e, by rw [run.unpack_append, he, List.append_nil]⟩

end Scalar

/-! ## Chunks -/

structure Chunk (k : Scalar) where
  values : List k.Carrier
  packed : Bool

/-- One record, also when there is no value, or one record for each value. -/
def Chunk.steps {k : Scalar} (field : Nat) (chunk : Chunk k) : List WriteStep :=
  if chunk.packed then [.packed field k chunk.values]
  else chunk.values.map fun v => .scalar field k v

theorem bodyBytes_append {steps more : List WriteStep} {bytes : Bytes}
    (h : bodyBytes (steps ++ more) = .ok bytes) :
    ∃ front back, bytes = front ++ back ∧ bodyBytes steps = .ok front ∧
      bodyBytes more = .ok back := by
  induction steps generalizing bytes with
  | nil => exact ⟨[], bytes, rfl, by rw [bodyBytes], h⟩
  | cons step rest ih =>
    rw [List.cons_append, bodyBytes] at h
    split at h
    · cases h
    · rename_i first hfirst
      split at h
      · cases h
      · rename_i others hothers
        cases h
        obtain ⟨front, back, rfl, hfront, hback⟩ := ih hothers
        exact ⟨first ++ front, back, by rw [List.append_assoc],
          by simp only [bodyBytes, hfirst, hfront], hback⟩

namespace Chunk

variable {k : Scalar} {field : Nat}

theorem bytes_steps (number : IsFieldNumber field) (chunk : Chunk k) :
    ∀ step ∈ chunk.steps field, ∃ bytes, step.bytes = .ok bytes := by
  intro step hstep
  rw [steps] at hstep
  split at hstep
  · obtain rfl := List.mem_singleton.1 hstep
    exact ⟨_, by rw [WriteStep.bytes, recordBytes_of_isFieldNumber number]⟩
  · obtain ⟨v, -, rfl⟩ := List.mem_map.1 hstep
    exact ⟨_, by rw [WriteStep.bytes, recordBytes_of_isFieldNumber number]⟩

end Chunk

namespace Cursor

/-! ## Going through all records -/

/-- Reads all records ahead, first to last, onto the end of `values`, until the input
    ends or one of them cannot be read. -/
def collect (k : Scalar) (c : Cursor) (values : List k.Carrier) :
    Outcome Unit × List k.Carrier :=
  match _h : c.next with
  | (.error e, c) => ((.error (.malformed e), c), values)
  | (.ok false, c) => ((.ok (), c), values)
  | (.ok true, c₁) =>
    match _hread : c₁.readRepeated k values with
    | ((.error fault, c), kept) => ((.error fault, c), kept)
    | ((.ok (), c₂), more) => collect k c₂ more
termination_by c.ahead.length
decreasing_by
  have hnext := next_length_lt _h
  have hread := (c₁.takes_readRepeated k values).suffix.length_le
  simp only [_hread] at hread
  omega

variable {k : Scalar} {field : Nat} {c c₁ c₂ : Cursor} {before vs : List k.Carrier} {rest : Bytes}

theorem collect_of_read (moved : c.next = (.ok true, c₁))
    (added : c₁.readRepeated k before = ((.ok (), c₂), before ++ vs)) :
    collect k c before = collect k c₂ (before ++ vs) := by
  rw [collect]
  split
  · simp_all
  · simp_all
  · rename_i c₁' hmoved
    obtain rfl : c₁ = c₁' := by simpa [moved] using hmoved
    split
    · simp_all
    · rename_i c₂' values hread
      obtain ⟨rfl, rfl⟩ : c₂ = c₂' ∧ before ++ vs = values := by simpa [added] using hread
      rfl

theorem collect_of_ahead_nil (done : c.IsDone) (h : c.ahead = []) :
    collect k c before = ((.ok (), { c with state := .exhausted }), before) := by
  have hnext : c.next = (.ok false, { c with state := .exhausted }) := by
    rw [next_of_isDone done, next.advance]
    split
    · rfl
    · rename_i heq
      simp [h] at heq
  rw [collect]
  split <;> simp_all

/-- One packed record ahead adds its values. -/
theorem collect_packed (number : IsFieldNumber field) (addressable : (k.pack vs).Addressable)
    (done : c.IsDone)
    (ahead : c.ahead = keyed field .delimited (delimit (k.pack vs)) ++ rest) :
    ∃ c', c'.IsDone ∧ c'.ahead = rest ∧ c'.depth = c.depth ∧
      ∀ before, collect k c before = collect k c' (before ++ vs) :=
  ⟨⟨rest, .positioned ⟨field, .delimited⟩ true, c.depth⟩, trivial, rfl, rfl, fun before =>
    collect_of_read (next_of_keyed done number rfl ahead)
      (readRepeated_of_unread k vs before addressable)⟩

/-- One record with a single value ahead adds it. -/
theorem collect_scalar (number : IsFieldNumber field) (packable : k.isPackable) (v : k.Carrier)
    (addressable : (k.put v).Addressable) (done : c.IsDone)
    (ahead : c.ahead = keyed field k.wireType (k.put v) ++ rest) :
    ∃ c', c'.IsDone ∧ c'.ahead = rest ∧ c'.depth = c.depth ∧
      ∀ before, collect k c before = collect k c' (before ++ [v]) := by
  have notDelimited : k.wireType ≠ .delimited := by simpa [Scalar.isPackable] using packable
  refine ⟨⟨rest, .positioned ⟨field, k.wireType⟩ true, c.depth⟩, trivial, rfl, rfl, fun before =>
    collect_of_read (next_of_keyed done number (by cases k <;> rfl) ahead) ?_⟩
  have value : read ⟨k.put v ++ rest, .positioned ⟨field, k.wireType⟩ false, c.depth⟩ k =
      (.ok v, ⟨rest, .positioned ⟨field, k.wireType⟩ true, c.depth⟩) :=
    read_of_unread k v addressable
  simp only [readRepeated, wireType, key, Except.map, value]

/-- Records with a single value each add their values, first to last. -/
theorem collect_scalars (number : IsFieldNumber field) (packable : k.isPackable)
    {values : List k.Carrier} {bytes : Bytes}
    (written : bodyBytes (values.map fun v => .scalar field k v) = .ok bytes)
    (addressable : bytes.Addressable) (done : c.IsDone) (ahead : c.ahead = bytes ++ rest) :
    ∃ c', c'.IsDone ∧ c'.ahead = rest ∧ c'.depth = c.depth ∧
      ∀ before, collect k c before = collect k c' (before ++ values) := by
  induction values generalizing c bytes with
  | nil =>
    rw [List.map_nil, bodyBytes] at written
    cases written
    exact ⟨c, done, by simpa using ahead, rfl, fun before => by rw [List.append_nil]⟩
  | cons v values ih =>
    rw [List.map_cons, ← List.singleton_append] at written
    obtain ⟨front, back, rfl, hfront, hback⟩ := bodyBytes_append written
    simp only [bodyBytes, WriteStep.bytes, recordBytes_of_isFieldNumber number,
      List.append_nil, Except.ok.injEq] at hfront
    subst hfront
    rw [List.append_assoc] at ahead
    have value : (k.put v).Addressable :=
      addressable.of_length_le (by simp [keyed]; omega)
    obtain ⟨c₁, done₁, ahead₁, depth₁, first⟩ :=
      collect_scalar number packable v value done ahead
    obtain ⟨c₂, done₂, ahead₂, depth₂, others⟩ :=
      ih hback (addressable.of_length_le (by simp)) done₁ ahead₁
    refine ⟨c₂, done₂, ahead₂, depth₂.trans depth₁, fun before => ?_⟩
    rw [first, others, List.append_assoc, List.singleton_append]

/-- A chunk ahead adds its values, however it was written. -/
theorem collect_chunk (number : IsFieldNumber field) (packable : k.isPackable) {chunk : Chunk k}
    {bytes : Bytes} (written : bodyBytes (chunk.steps field) = .ok bytes)
    (addressable : bytes.Addressable) (done : c.IsDone) (ahead : c.ahead = bytes ++ rest) :
    ∃ c', c'.IsDone ∧ c'.ahead = rest ∧ c'.depth = c.depth ∧
      ∀ before, collect k c before = collect k c' (before ++ chunk.values) := by
  rw [Chunk.steps] at written
  split at written
  · simp only [bodyBytes, WriteStep.bytes, recordBytes_of_isFieldNumber number,
      List.append_nil, Except.ok.injEq] at written
    subst written
    have values := addressable.of_length_le (length_content_le_keyed field (k.pack chunk.values))
    exact collect_packed number values done ahead
  · exact collect_scalars number packable written addressable done ahead

theorem collect_chunks (number : IsFieldNumber field) (packable : k.isPackable)
    {chunks : List (Chunk k)} {bytes : Bytes}
    (written : bodyBytes (chunks.flatMap (Chunk.steps field)) = .ok bytes)
    (addressable : bytes.Addressable) (done : c.IsDone) (ahead : c.ahead = bytes)
    (before : List k.Carrier) :
    collect k c before =
      ((.ok (), ⟨[], .exhausted, c.depth⟩), before ++ chunks.flatMap Chunk.values) := by
  induction chunks generalizing c bytes before with
  | nil =>
    rw [List.flatMap_nil, bodyBytes] at written
    cases written
    rw [collect_of_ahead_nil done ahead, ahead, List.flatMap_nil, List.append_nil]
  | cons chunk chunks ih =>
    rw [List.flatMap_cons] at written
    obtain ⟨front, back, rfl, hfront, hback⟩ := bodyBytes_append written
    obtain ⟨c₁, done₁, ahead₁, depth₁, first⟩ :=
      collect_chunk number packable hfront (addressable.of_length_le (by simp)) done ahead
    rw [first, ih hback (addressable.of_length_le (by simp)) done₁ ahead₁, depth₁,
      List.flatMap_cons, List.append_assoc]

/-- The record that `c` stands on cannot be read to its end as part of a repeated field:
    `values` stand before the fault, and the cursor is left as `c'`. -/
inductive FailsBehind (c : Cursor) (k : Scalar) : (c' : Cursor) → (values : List k.Carrier) → Prop
  /-- There is no record to read. -/
  | unplaced {m : Misuse} (nowhere : c.wireType = .error m) : FailsBehind c k c []
  /-- The payload that values are packed in cannot be taken. -/
  | cutOff {c' : Cursor} {fault : CursorFault} (packed : c.wireType = .ok .delimited)
    (payload : c.content .delimited = (.error fault, c')) : FailsBehind c k c' []
  /-- The only value cannot be read. -/
  | single {c' : Cursor} {w : WireType} {fault : CursorFault} (layout : c.wireType = .ok w)
    (unpacked : w ≠ .delimited) (value : c.read k = (.error fault, c')) : FailsBehind c k c' []
  /-- Behind the values something follows that is no value. -/
  | packed {c' : Cursor} {front bad : Bytes} {values : List k.Carrier}
    (packed : c.wireType = .ok .delimited)
    (payload : c.content .delimited = (.ok (front ++ bad), c')) (run : k.Run front values)
    (goesOn : bad ≠ []) (malformed : k.StartsNone bad) : FailsBehind c k c' values

theorem readRepeated_eq_error_iff {c c' : Cursor} {before after : List k.Carrier} :
    (∃ fault, c.readRepeated k before = ((.error fault, c'), after)) ↔
      ∃ values, after = before ++ values ∧ c.FailsBehind k c' values := by
  constructor
  · rintro ⟨fault, h⟩
    rw [readRepeated] at h
    split at h
    · rename_i m nowhere
      cases h
      exact ⟨[], by simp, .unplaced nowhere⟩
    · rename_i packed
      split at h
      · rename_i payload
        cases h
        exact ⟨[], by simp, .cutOff packed payload⟩
      · rename_i payload
        split at h
        · cases h
        · rename_i e vs hunpack
          cases h
          obtain ⟨front, bad, rfl, run, goesOn, malformed⟩ :=
            Scalar.unpack_eq_error_iff.1 ⟨e, hunpack⟩
          exact ⟨vs, rfl, .packed packed payload run goesOn malformed⟩
    · rename_i w unpacked layout
      split at h
      · cases h
      · rename_i value
        cases h
        exact ⟨[], by simp, .single layout unpacked value⟩
  · rintro ⟨values, rfl, fails⟩
    rw [readRepeated]
    cases fails with
    | unplaced nowhere => simp [nowhere]
    | cutOff packed payload => simp [packed, payload]
    | single layout unpacked value =>
      rw [layout]
      split
      · simp_all
      · simp_all
      · simp [value]
    | packed packed payload run goesOn malformed =>
      obtain ⟨e, he⟩ := Scalar.unpack_eq_error_iff.2 ⟨_, _, rfl, run, goesOn, malformed⟩
      simp [packed, payload, he]

/-- Sizes that break off behind the second. -/
example : (readRepeated ⟨[3, 1, 4, 128], .positioned ⟨7, .delimited⟩ false, 0⟩ .sint32
    [(9 : Int32)]).2 = ([9, -1, 2] : List Int32) := by
  cbv

/-! ## Both laws -/

/-- However the values of a repeated field are split into chunks, and whether or not each
    chunk is packed, its records are all written and going through them adds exactly the
    values, in order, and leaves nothing.  A record that fails adds exactly those of its
    values that stand before the fault. -/
theorem repeated_interchangeable {k : Scalar} (packable : k.isPackable) {field : Nat}
    (number : IsFieldNumber field) :
    (∀ chunks : List (Chunk k), ∃ w,
      Writer.performAll {} (chunks.flatMap (Chunk.steps field)) = (.ok (), w) ∧
        (w.written.Addressable → ∀ before : List k.Carrier,
          collect k { ahead := w.written } before =
            ((.ok (), { ahead := [], state := .exhausted }),
              before ++ chunks.flatMap Chunk.values))) ∧
    ∀ (c c' : Cursor) (before after : List k.Carrier),
      (∃ fault, c.readRepeated k before = ((.error fault, c'), after)) ↔
        ∃ values, after = before ++ values ∧ c.FailsBehind k c' values := by
  refine ⟨fun chunks => ?_, fun c c' before after => readRepeated_eq_error_iff⟩
  have writable : ∀ step ∈ chunks.flatMap (Chunk.steps field), ∃ bytes, step.bytes = .ok bytes := by
    intro step hstep
    obtain ⟨chunk, -, hchunk⟩ := List.mem_flatMap.1 hstep
    exact chunk.bytes_steps number step hchunk
  obtain ⟨bytes, hbytes⟩ := bodyBytes_of_forall writable
  refine ⟨⟨bytes⟩, Writer.performAll_of_bodyBytes hbytes {}, fun addressable before => ?_⟩
  exact collect_chunks (c := { ahead := bytes }) number packable hbytes addressable trivial rfl before

def hatChunks : List (Chunk .sint32) :=
  [⟨[(-1 : Int32), (2 : Int32)], true⟩, ⟨[(-3 : Int32)], false⟩, ⟨[], true⟩]

theorem repeated_interchangeable_hatChunks :
    Scalar.sint32.isPackable ∧ IsFieldNumber 7 ∧
      (Writer.performAll {} (hatChunks.flatMap (Chunk.steps 7))).2.written =
        [58, 2, 1, 4, 56, 5, 58, 0] ∧
      (∀ before : List Int32, collect .sint32 { ahead := [58, 2, 1, 4, 56, 5, 58, 0] } before =
        ((.ok (), { ahead := [], state := .exhausted }), before ++ [-1, 2, -3])) := by
  obtain ⟨interchangeable, -⟩ :=
    repeated_interchangeable (k := .sint32) (by decide) (show IsFieldNumber 7 by decide)
  obtain ⟨w, performed, collected⟩ := interchangeable hatChunks
  have written : (Writer.performAll {} (hatChunks.flatMap (Chunk.steps 7))).2.written =
      [58, 2, 1, 4, 56, 5, 58, 0] := by decide +kernel
  rw [performed] at written
  simp only at written
  rw [written] at collected
  exact ⟨by decide, by decide, by rw [performed]; exact written, collected (by decide)⟩

end Cursor

end Protobuf
