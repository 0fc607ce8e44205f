import Protobuf.Descriptor.Wire
import Protobuf.Proofs.Wire.Record

/-! # What records do to a state

A descriptor is read by a step for each record, and written part by part.  Each part leads
the reader from a state without it to the state with it, whatever stands behind the part.

* `Record.Feeds`: bytes that lead a fold from one state to another.
* `Record.Feeds.optional`, `repeated`, `packed`, `nested`, `parts`: the parts of a descriptor.
* `Decodes`: what a reader makes of some bytes.
-/

namespace Protobuf

namespace Record

variable {σ : Type} {step : Record → σ → Except DecodeError σ}

def keeping (step : Record → σ → Except DecodeError σ) (r : Record) (s : σ) :
    Except DecodeError Unit × σ :=
  match step r s with
  | .ok s => (.ok (), s)
  | .error e => (.error e, s)

theorem fold_eq (bytes : Bytes) (s : σ) :
    fold step bytes s =
      match forEach (keeping step) bytes s with
      | (.ok (), s) => .ok s
      | (.error e, _) => .error e := rfl

@[simp] theorem fold_nil (s : σ) : fold step [] s = .ok s := by
  rw [fold_eq, forEach_nil]

theorem fold_spelled {bytes : Bytes} {r : Record} {s s' : σ} (h : Spelled bytes r)
    (hstep : step r s = .ok s') (rest : Bytes) : fold step (bytes ++ rest) s = fold step rest s' := by
  have hkeeping : keeping step r s = (.ok (), s') := by rw [keeping, hstep]
  rw [fold_eq, fold_eq, forEach_append h, hkeeping]

/-! ## Parts -/

/-- If `bytes` fit a machine, a fold over them goes from `s` to `s'`, and on from there. -/
structure Feeds (step : Record → σ → Except DecodeError σ) (bytes : Bytes) (s s' : σ) : Prop where
  fold_append : bytes.Addressable → ∀ rest, fold step (bytes ++ rest) s = fold step rest s'

namespace Feeds

theorem nil (s : σ) : Feeds step [] s s := ⟨fun _ _ => rfl⟩

theorem append {x y : Bytes} {s s₁ s₂ : σ} (first : Feeds step x s s₁) (second : Feeds step y s₁ s₂) :
    Feeds step (x ++ y) s s₂ := by
  refine ⟨fun fits rest => ?_⟩
  rw [List.append_assoc, first.fold_append (fits.of_length_le (by simp)),
    second.fold_append (fits.of_length_le (by simp))]

/-- A fold over a whole input. -/
theorem fold_eq_ok {bytes : Bytes} {s s' : σ} (feeds : Feeds step bytes s s')
    (fits : bytes.Addressable) : fold step bytes s = .ok s' := by
  have hfold := feeds.fold_append fits []
  rwa [List.append_nil, fold_nil] at hfold

/-- Elements one after the other, of which each extends a list. -/
theorem flatMap {α : Type} {bytes : α → Bytes} (state : List α → σ) {as : List α}
    (each : ∀ before, ∀ a ∈ as, Feeds step (bytes a) (state before) (state (before ++ [a]))) :
    Feeds step (as.flatMap bytes) (state []) (state as) := by
  suffices go : ∀ before behind, (∀ a ∈ behind, a ∈ as) →
      Feeds step (behind.flatMap bytes) (state before) (state (before ++ behind)) from
    go [] as fun _ => id
  intro before behind
  induction behind generalizing before with
  | nil =>
    intro
    rw [List.append_nil]
    exact nil _
  | cons a rest ih =>
    intro hmem
    have hrest := ih (before ++ [a]) fun a' ha' => hmem a' (List.mem_cons_of_mem _ ha')
    rw [List.append_assoc] at hrest
    exact (each before a (hmem a List.mem_cons_self)).append hrest

/-- A record of a scalar. -/
theorem keyed (number : Nat) (k : Scalar) {s s' : σ} (hnumber : IsFieldNumber number) (v : k.Carrier)
    (hstep : ∀ r : Record, r.number = number → r.scalar k = .ok v → step r s = .ok s') :
    Feeds step (keyed number k.wireType (k.put v)) s s' := by
  refine ⟨fun fits rest => ?_⟩
  have hspelled := spelled_scalar hnumber k v
    (fits.of_length_le (length_payload_le_keyed number k.wireType _))
  exact fold_spelled hspelled (hstep _ rfl (scalar_toPayload number k v)) rest

/-- A scalar that may be absent. -/
theorem optional (number : Nat) (k : Scalar) (hnumber : IsFieldNumber number)
    (state : Option k.Carrier → σ)
    (hstep : ∀ (r : Record) (v : k.Carrier), r.number = number → r.scalar k = .ok v →
      step r (state none) = .ok (state (some v)))
    (v : Option k.Carrier) : Feeds step (optionalRecord number k v) (state none) (state v) := by
  cases v with
  | none => exact nil _
  | some v => exact keyed number k hnumber v fun r => hstep r v

/-- A list of scalars with a record each. -/
theorem repeated (number : Nat) (k : Scalar) (hnumber : IsFieldNumber number)
    (state : List k.Carrier → σ)
    (hstep : ∀ (r : Record) (before : List k.Carrier) (v : k.Carrier), r.number = number →
      r.scalar k = .ok v → step r (state before) = .ok (state (before ++ [v])))
    (vs : List k.Carrier) : Feeds step (repeatedRecords number k vs) (state []) (state vs) :=
  flatMap state fun before v _ => keyed number k hnumber v fun r => hstep r before v

/-- A list of numbers in one record, or in none if it is empty. -/
theorem packed (number : Nat) (k : Scalar) (hnumber : IsFieldNumber number) (hk : k.isPackable)
    (state : List k.Carrier → σ)
    (hstep : ∀ (r : Record) (vs : List k.Carrier), r.number = number →
      r.scalars k = (.ok (), vs) → step r (state []) = .ok (state vs))
    (vs : List k.Carrier) : Feeds step (packedRecord number k vs) (state []) (state vs) := by
  rw [packedRecord]
  split
  · rename_i hempty
    rw [List.isEmpty_iff.1 hempty]
    exact nil _
  · refine ⟨fun fits rest => ?_⟩
    have hdelimit := fits.of_length_le (length_payload_le_keyed number .delimited _)
    have hpack : (k.pack vs).Addressable := hdelimit.of_length_le (length_le_delimit _)
    refine fold_spelled (spelled_delimited hnumber hpack) (hstep _ vs rfl ?_) rest
    rw [scalars, if_pos ⟨hk, rfl⟩, content_self]
    exact k.unpack_pack vs hpack

end Feeds

end Record

/-! ## Parts with parts of their own -/

def Decodes {α : Type} (read : Bytes → Except DecodeError α) (bytes : Bytes) (a : α) : Prop :=
  bytes.Addressable → read bytes = .ok a

theorem Decodes.readNested {α : Type} {start : α} {step : Nat → Record → α → Except DecodeError α}
    {bytes : Bytes} {a : α} {levels : Nat} (positive : 0 < levels)
    (feeds : Record.Feeds (step (levels - 1)) bytes start a) :
    Decodes (readNested start step levels) bytes a := by
  cases levels with
  | zero => cases positive
  | succ levels => exact feeds.fold_eq_ok

namespace Record.Feeds

variable {σ α : Type} {step : Record → σ → Except DecodeError σ} {number : Nat}
  {read : Bytes → Except DecodeError α}

/-- One part. -/
theorem nested {s s' : σ} {bytes : Bytes} {a : α} (hnumber : IsFieldNumber number)
    (reads : Decodes read bytes a)
    (hstep : ∀ r : Record, r.number = number → r.nested read = .ok a → step r s = .ok s') :
    Feeds step (nestedRecord number bytes) s s' := by
  refine ⟨fun fits rest => ?_⟩
  have hdelimit := fits.of_length_le (length_payload_le_keyed number .delimited _)
  have hbytes : bytes.Addressable := hdelimit.of_length_le (length_le_delimit _)
  refine fold_spelled (spelled_delimited hnumber hbytes) (hstep _ rfl ?_) rest
  rw [Record.nested, content_self]
  exact reads hbytes

/-- A part that may be absent. -/
theorem optionalPart (number : Nat) {bytes : α → Bytes} (hnumber : IsFieldNumber number)
    (state : Option α → σ)
    (hstep : ∀ (r : Record) (a : α), r.number = number → r.nested read = .ok a →
      step r (state none) = .ok (state (some a)))
    {part : Option α} (reads : ∀ a ∈ part, Decodes read (bytes a) a) :
    Feeds step (part.toList.flatMap fun a => nestedRecord number (bytes a))
      (state none) (state part) := by
  cases part with
  | none => exact nil _
  | some a =>
    rw [Option.toList_some, List.flatMap_singleton]
    exact nested hnumber (reads a rfl) fun r => hstep r a

/-- A list of parts. -/
theorem parts (number : Nat) {bytes : α → Bytes} (hnumber : IsFieldNumber number)
    (state : List α → σ)
    (hstep : ∀ (r : Record) (before : List α) (a : α), r.number = number →
      r.nested read = .ok a → step r (state before) = .ok (state (before ++ [a])))
    {as : List α} (reads : ∀ a ∈ as, Decodes read (bytes a) a) :
    Feeds step (as.flatMap fun a => nestedRecord number (bytes a)) (state []) (state as) :=
  flatMap state fun before a ha => nested hnumber (reads a ha) fun r => hstep r before a

end Record.Feeds

end Protobuf
