import Protobuf.Wire.Cursor
import Protobuf.Wire.WriteStep
import Protobuf.Proofs.Wire.Record

/-! # A cursor sees what a writer was asked

Records written step by step are met step by step.  Before each of them the cursor
moves on, and the read that matches the step answers the field number and the values
that were written, in a nested record as in an outer one; behind the last record no
byte is left.

* `WriteStep.IsRecord`, `WriteStep.depth`: the steps that write whole records, and how
  deep they nest.
* `Cursor.Reads`, `Cursor.ReadsAll`: a cursor that answers what the steps wrote.
* `Cursor.ReadsBack`: the law of one step, in front of any other bytes.
* `Cursor.readsAll_performAll`: the law of a whole list of steps.
-/

namespace Protobuf

inductive WriteStep.IsRecord : WriteStep → Prop
  | scalar {field : Nat} {k : Scalar} {v : k.Carrier} (number : IsFieldNumber field) :
    IsRecord (.scalar field k v)
  | packed {field : Nat} {k : Scalar} {vs : List k.Carrier} (number : IsFieldNumber field)
    (packable : k.isPackable) : IsRecord (.packed field k vs)
  | nested {field : Nat} {body : List WriteStep} (number : IsFieldNumber field)
    (records : ∀ step ∈ body, IsRecord step) : IsRecord (.nested field body)

mutual

def WriteStep.depth : WriteStep → Nat
  | .nested _ body => bodyDepth body + 1
  | .tag .. | .payload _ | .scalar .. | .packed .. => 0

def bodyDepth : List WriteStep → Nat
  | [] => 0
  | step :: rest => max step.depth (bodyDepth rest)

end

theorem recordBytes_of_isFieldNumber {field : Nat} (h : IsFieldNumber field) (w : WireType)
    (payload : Bytes) : recordBytes field w payload = .ok (keyed field w payload) := by
  rw [recordBytes, FieldKey.encode, if_pos h]
  rfl

theorem length_content_le_keyed (field : Nat) (content : Bytes) :
    content.length ≤ (keyed field .delimited (delimit content)).length :=
  Nat.le_trans (length_le_delimit content) (Record.length_payload_le_keyed field _ _)

theorem bodyBytes_of_forall {steps : List WriteStep}
    (h : ∀ step ∈ steps, ∃ bytes, step.bytes = .ok bytes) :
    ∃ bytes, bodyBytes steps = .ok bytes := by
  induction steps with
  | nil => exact ⟨[], by rw [bodyBytes]⟩
  | cons step rest ih =>
    obtain ⟨front, hfront⟩ := h step (by simp)
    obtain ⟨back, hback⟩ := ih fun s hs => h s (by simp [hs])
    exact ⟨front ++ back, by simp only [bodyBytes, hfront, hback]⟩

/-- A step that writes a record is carried out. -/
theorem WriteStep.IsRecord.bytes {step : WriteStep} (h : step.IsRecord) :
    ∃ bytes, step.bytes = .ok bytes := by
  induction h with
  | scalar number =>
    rw [WriteStep.bytes, recordBytes_of_isFieldNumber number]
    exact ⟨_, rfl⟩
  | packed number =>
    rw [WriteStep.bytes, recordBytes_of_isFieldNumber number]
    exact ⟨_, rfl⟩
  | nested number _ ih =>
    obtain ⟨payload, hbody⟩ := bodyBytes_of_forall ih
    rw [WriteStep.bytes, hbody]
    exact ⟨_, recordBytes_of_isFieldNumber number _ _⟩

namespace Writer

/-- Carries out steps, first to last, until one is a misuse. -/
def performAll (w : Writer) : List WriteStep → Except Misuse Unit × Writer
  | [] => (.ok (), w)
  | step :: rest =>
    match w.perform step with
    | (.error e, w) => (.error e, w)
    | (.ok (), w) => w.performAll rest

theorem performAll_of_bodyBytes {steps : List WriteStep} {bytes : Bytes}
    (h : bodyBytes steps = .ok bytes) (w : Writer) :
    w.performAll steps = (.ok (), ⟨w.written ++ bytes⟩) := by
  induction steps generalizing w bytes with
  | nil =>
    rw [bodyBytes] at h
    cases h
    rw [performAll, List.append_nil]
  | cons step rest ih =>
    rw [bodyBytes] at h
    split at h
    · cases h
    · rename_i front hfront
      split at h
      · cases h
      · rename_i back hback
        cases h
        simp only [performAll, perform, hfront, ih hback, List.append_assoc]

end Writer

namespace Cursor

mutual

/-- Standing on a record, `c` answers to the matching read what a step wrote, and is
    left as `c'`. -/
inductive Reads : Cursor → WriteStep → Cursor → Prop
  | scalar {c c' : Cursor} {field : Nat} {k : Scalar} {v : k.Carrier}
    (number : c.fieldNumber = .ok field) (value : c.read k = (.ok v, c')) :
    Reads c (.scalar field k v) c'
  | packed {c c' : Cursor} {field : Nat} {k : Scalar} {vs : List k.Carrier}
    (number : c.fieldNumber = .ok field)
    (values : ∀ before, c.readRepeated k before = ((.ok (), c'), before ++ vs)) :
    Reads c (.packed field k vs) c'
  | nested {c c' inner : Cursor} {field : Nat} {body : List WriteStep}
    (number : c.fieldNumber = .ok field) (entered : c.enter = (.ok inner, c'))
    (content : ReadsAll inner body) : Reads c (.nested field body) c'

/-- Moved on before each record, `c` answers what the steps wrote, first to last.
    Behind the last record no byte is left and the cursor says so. -/
inductive ReadsAll : Cursor → List WriteStep → Prop
  | done {c : Cursor} (consumed : c.ahead = []) (ended : c.next.1 = .ok false) : ReadsAll c []
  | step {c c₁ c₂ : Cursor} {step : WriteStep} {rest : List WriteStep}
    (moved : c.next = (.ok true, c₁)) (answered : Reads c₁ step c₂) (further : ReadsAll c₂ rest) :
    ReadsAll c (step :: rest)

end

/-! ## Moving on -/

/-- Whether nothing of the record that the cursor stands on is unread. -/
def IsDone (c : Cursor) : Prop :=
  match c.state with
  | .notStarted | .positioned _ true => True
  | .positioned _ false | .exhausted => False

theorem next_of_isDone {c : Cursor} (h : c.IsDone) : c.next = next.advance c := by
  unfold IsDone at h
  unfold next
  split at h
  · rename_i hstate
    rw [hstate]
  · rename_i hstate
    rw [hstate]
  · exact h.elim
  · exact h.elim

theorem next_of_ahead_nil {c : Cursor} (done : c.IsDone) (h : c.ahead = []) :
    c.next.1 = .ok false := by
  rw [next_of_isDone done, next.advance]
  split
  · rfl
  · rename_i heq
    simp [heq] at h

theorem next_of_keyed {c : Cursor} (done : c.IsDone) {number : Nat} {w : WireType}
    (hnumber : IsFieldNumber number) (hgroup : w.isGroup = false) {payload rest : Bytes}
    (h : c.ahead = keyed number w payload ++ rest) :
    c.next = (.ok true, ⟨payload ++ rest, .positioned ⟨number, w⟩ false, c.depth⟩) := by
  have hkey : FieldKey.decode c.ahead = (.ok ⟨number, w⟩, payload ++ rest) := by
    rw [h, keyed, List.append_assoc]
    exact FieldKey.decode_append_raw hnumber _
  have hne : c.ahead ≠ [] := by
    rw [h, keyed]
    simp [Varint.encode_ne_nil]
  rw [next_of_isDone done, next.advance]
  split
  · rename_i heq
    exact absurd heq hne
  · rename_i heq
    rw [← heq, hkey]
    simp [hgroup]

/-! ## Reading one record -/

variable {number depth : Nat} {bytes rest : Bytes}

/-- The payload of an unread record that is laid out as expected. -/
theorem content_of_unread {w : WireType} {p : Payload w}
    (h : Payload.take w (bytes ++ rest) = (.ok p, rest)) :
    content ⟨bytes ++ rest, .positioned ⟨number, w⟩ false, depth⟩ w =
      (.ok p, ⟨rest, .positioned ⟨number, w⟩ true, depth⟩) := by
  simp only [content, begin, if_true, h]

theorem read_of_unread (k : Scalar) (v : k.Carrier) (h : (k.put v).Addressable) :
    read ⟨k.put v ++ rest, .positioned ⟨number, k.wireType⟩ false, depth⟩ k =
      (.ok v, ⟨rest, .positioned ⟨number, k.wireType⟩ true, depth⟩) := by
  simp only [read, content_of_unread (Scalar.take_payload_append_put k v h rest),
    Scalar.ofPayload_toPayload]

theorem readRepeated_of_unread (k : Scalar) (vs before : List k.Carrier)
    (h : (k.pack vs).Addressable) :
    readRepeated ⟨delimit (k.pack vs) ++ rest, .positioned ⟨number, .delimited⟩ false, depth⟩ k
        before =
      ((.ok (), ⟨rest, .positioned ⟨number, .delimited⟩ true, depth⟩), before ++ vs) := by
  simp only [readRepeated, wireType, key, Except.map,
    content_of_unread (Payload.take_delimited h rest), Scalar.unpack_pack k vs h]

theorem enter_of_unread (h : bytes.Addressable) (limit : depth < nestingLimit) :
    enter ⟨delimit bytes ++ rest, .positioned ⟨number, .delimited⟩ false, depth⟩ =
      (.ok ⟨bytes, .notStarted, depth + 1⟩,
        ⟨rest, .positioned ⟨number, .delimited⟩ true, depth⟩) := by
  simp only [enter, content_of_unread (Payload.take_delimited h rest)]
  rw [if_neg (by omega)]

/-! ## Reading steps -/

/-- What a step wrote is read back from the front of any input, and what stands behind
    it is left as it was. -/
def ReadsBack (step : WriteStep) : Prop :=
  ∀ {bytes : Bytes}, step.bytes = .ok bytes → bytes.Addressable →
    ∀ {c : Cursor} {rest : Bytes}, c.IsDone → c.depth + step.depth ≤ nestingLimit →
      c.ahead = bytes ++ rest →
      ∃ c₁ c₂, c.next = (.ok true, c₁) ∧ Reads c₁ step c₂ ∧ c₂.IsDone ∧ c₂.depth = c.depth ∧
        c₂.ahead = rest

theorem readsAll_of_readsBack {steps : List WriteStep} (each : ∀ step ∈ steps, ReadsBack step)
    {bytes : Bytes} (written : bodyBytes steps = .ok bytes) (h : bytes.Addressable) {c : Cursor}
    (done : c.IsDone) (limit : c.depth + bodyDepth steps ≤ nestingLimit) (ahead : c.ahead = bytes) :
    ReadsAll c steps := by
  induction steps generalizing c bytes with
  | nil =>
    rw [bodyBytes] at written
    cases written
    exact .done ahead (next_of_ahead_nil done ahead)
  | cons step rest ih =>
    rw [bodyBytes] at written
    rw [bodyDepth] at limit
    split at written
    · cases written
    · rename_i front hfront
      split at written
      · cases written
      · rename_i back hback
        cases written
        obtain ⟨c₁, c₂, moved, answered, done₂, depth₂, ahead₂⟩ :=
          each step (by simp) hfront (h.of_length_le (by simp)) done (by omega) ahead
        have further : ReadsAll c₂ rest :=
          ih (fun s hs => each s (by simp [hs])) hback (h.of_length_le (by simp)) done₂ (by omega)
            ahead₂
        exact .step moved answered further

theorem readsBack {step : WriteStep} (h : step.IsRecord) : ReadsBack step := by
  induction h with
  | @scalar field k v number =>
    intro bytes written addressable c rest done _ ahead
    rw [WriteStep.bytes, recordBytes_of_isFieldNumber number] at written
    cases written
    have value := addressable.of_length_le (Record.length_payload_le_keyed field _ (k.put v))
    exact ⟨_, _, next_of_keyed done number (by cases k <;> rfl) ahead,
      .scalar rfl (read_of_unread k v value), trivial, rfl, rfl⟩
  | @packed field k vs number _ =>
    intro bytes written addressable c rest done _ ahead
    rw [WriteStep.bytes, recordBytes_of_isFieldNumber number] at written
    cases written
    have values := addressable.of_length_le (length_content_le_keyed field (k.pack vs))
    exact ⟨_, _, next_of_keyed done number rfl ahead,
      .packed rfl fun before => readRepeated_of_unread k vs before values, trivial, rfl, rfl⟩
  | @nested field body number records ih =>
    intro bytes written addressable c rest done limit ahead
    obtain ⟨content, hcontent⟩ := bodyBytes_of_forall fun s hs => (records s hs).bytes
    simp only [WriteStep.bytes, hcontent, recordBytes_of_isFieldNumber number] at written
    cases written
    rw [WriteStep.depth] at limit
    have inner := addressable.of_length_le (length_content_le_keyed field content)
    -- The body is read by a cursor of its own, one level deeper.
    exact ⟨_, _, next_of_keyed done number rfl ahead,
      .nested rfl (enter_of_unread inner (by omega))
        (readsAll_of_readsBack ih hcontent inner trivial (by simp only; omega) rfl),
      trivial, rfl, rfl⟩

/-- Records that a writer was asked for, nested no deeper than a cursor may go, are all
    written, and a new cursor over the bytes answers exactly them. -/
theorem readsAll_performAll {steps : List WriteStep} (records : ∀ step ∈ steps, step.IsRecord)
    (limit : bodyDepth steps ≤ nestingLimit) :
    ∃ w, Writer.performAll {} steps = (.ok (), w) ∧
      (w.written.Addressable → ReadsAll { ahead := w.written } steps) := by
  obtain ⟨bytes, hbytes⟩ := bodyBytes_of_forall fun s hs => (records s hs).bytes
  refine ⟨⟨bytes⟩, Writer.performAll_of_bodyBytes hbytes {}, fun addressable => ?_⟩
  exact readsAll_of_readsBack (fun s hs => readsBack (records s hs)) hbytes addressable trivial
    (by simpa using limit) rfl

def hatSteps : List WriteStep :=
  [.scalar 1 .sint32 (-7 : Int32), .packed 2 .bool [],
    .nested 536870911 [.scalar 1 .string "felt", .packed 3 .float [(⟨0x7fc00001⟩ : Binary32)]]]

theorem readsAll_performAll_hatSteps :
    (∀ step ∈ hatSteps, step.IsRecord) ∧ bodyDepth hatSteps ≤ nestingLimit ∧
      ∃ w, Writer.performAll {} hatSteps = (.ok (), w) ∧
        ReadsAll { ahead := w.written } hatSteps := by
  have records : ∀ step ∈ hatSteps, step.IsRecord := by
    have lining : ∀ step ∈ [WriteStep.scalar 1 .string "felt",
        .packed 3 .float [(⟨0x7fc00001⟩ : Binary32)]], step.IsRecord := by
      simp only [List.mem_cons, List.not_mem_nil, or_false]
      rintro step (rfl | rfl)
      · exact .scalar (by decide)
      · exact .packed (by decide) (by decide)
    simp only [hatSteps, List.mem_cons, List.not_mem_nil, or_false]
    rintro step (rfl | rfl | rfl)
    · exact .scalar (by decide)
    · exact .packed (by decide) (by decide)
    · exact .nested (by decide) lining
  have limit : bodyDepth hatSteps ≤ nestingLimit := by decide +kernel
  obtain ⟨w, performed, reads⟩ := readsAll_performAll records limit
  have short : (Writer.performAll {} hatSteps).2.written.Addressable := by decide +kernel
  rw [performed] at short
  exact ⟨records, limit, w, performed, reads short⟩

end Cursor

end Protobuf
