import Protobuf.Proofs.Wire.Form
import Protobuf.Proofs.Wire.Stepwise

/-! # Writes are whole

A writer puts a record down part by part: its key, then its payload, and the body of a
nested record into a writer of its own before either.  Only a key can be refused.  It is
refused before it is put, and where a body fails the writer that it was put into is
dropped, so that of a step that fails nothing is left behind, at whatever depth the
number stood that was at fault.

* `Writer.putRecord`, `WriteStep.carryOut`: a step with the state between its parts.
* `WriteStep.carryOut_eq_perform`: no part of a failed step shows.
* `WriteStep.numbers`, `Misuse.judge`: the numbers of a step in the order in which their
  keys are put, and the first of them that is a misuse.
* `WriteStep.Whole`: one complete record, complete at every depth.
* `WriteStep.whole_or_nothing`: all of it together, for one step.
* `carryOutAll_whole`: what a writer holds after many, also when one of them failed.
-/

namespace Protobuf

namespace Writer

def put (w : Writer) (bytes : Bytes) : Writer := ⟨w.written ++ bytes⟩

def putAll (w : Writer) (parts : List Bytes) : Writer := parts.foldl put w

/-- Puts a key, unless no field can have its number. -/
def putKey (w : Writer) (key : FieldKey) : Except Misuse Unit × Writer :=
  match key.encode with
  | .error m => (.error m, w)
  | .ok bytes => (.ok (), w.put bytes)

def putRecord (w : Writer) (key : FieldKey) (parts : List Bytes) : Except Misuse Unit × Writer :=
  match w.putKey key with
  | (.error m, w) => (.error m, w)
  | (.ok (), w) => (.ok (), w.putAll parts)

def putWriter (w : Writer) (field : Nat) (child : Writer) : Except Misuse Unit × Writer :=
  w.putRecord ⟨field, .delimited⟩ [Varint.encode child.size, child.written]

theorem putAll_eq (w : Writer) (parts : List Bytes) : w.putAll parts = w.put parts.flatten := by
  induction parts generalizing w with
  | nil => simp [putAll, put]
  | cons part parts ih =>
    rw [putAll, List.foldl_cons, ← putAll, ih]
    simp [put]

/-- No byte of a record is put down when its key is refused. -/
theorem putRecord_eq (w : Writer) (key : FieldKey) (parts : List Bytes) :
    w.putRecord key parts =
      match recordBytes key.number key.wireType parts.flatten with
      | .error m => (.error m, w)
      | .ok bytes => (.ok (), w.put bytes) := by
  rw [putRecord, putKey, recordBytes]
  cases hkey : key.encode with
  | error m => simp only
  | ok bytes => simp only [putAll_eq, put, List.append_assoc]

theorem putWriter_eq (w : Writer) (field : Nat) (child : Writer) :
    w.putWriter field child =
      match recordBytes field .delimited (delimit child.written) with
      | .error m => (.error m, w)
      | .ok bytes => (.ok (), w.put bytes) := by
  rw [putWriter, putRecord_eq]
  simp [delimit, size]

end Writer

mutual

/-- Carries out a step part by part.  What a nested step holds is put into a new writer,
    which goes no further when that fails. -/
def WriteStep.carryOut : WriteStep → Writer → Except Misuse Unit × Writer
  | .tag field wireType, w => w.putKey ⟨field, wireType⟩
  | .payload bytes, w => (.ok (), w.put bytes)
  | .scalar field k v, w => w.putRecord ⟨field, k.wireType⟩ [k.put v]
  | .packed field k vs, w => w.putWriter field (Writer.putAll {} (vs.map k.put))
  | .nested field body, w =>
    match carryOutAll body {} with
    | (.error m, _) => (.error m, w)
    | (.ok (), child) => w.putWriter field child

/-- Carries out steps on one writer, first to last, until one fails. -/
def carryOutAll : List WriteStep → Writer → Except Misuse Unit × Writer
  | [], w => (.ok (), w)
  | step :: rest, w =>
    match step.carryOut w with
    | (.error m, w) => (.error m, w)
    | (.ok (), w) => carryOutAll rest w

end

theorem Writer.performAll_of_bodyBytes_error {steps : List WriteStep} {m : Misuse}
    (h : bodyBytes steps = .error m) (w : Writer) : (w.performAll steps).1 = .error m := by
  induction steps generalizing w with
  | nil => simp [bodyBytes] at h
  | cons step rest ih =>
    rw [bodyBytes] at h
    rw [performAll, perform]
    split at h
    · rename_i hfront
      cases h
      simp only [hfront]
    · rename_i front hfront
      split at h
      · rename_i hback
        cases h
        simp only [hfront, ih hback]
      · cases h

mutual

/-- Between the parts of a step a writer may hold a key without its payload.  Whatever
    becomes of the step, nobody sees that. -/
theorem WriteStep.carryOut_eq_perform : ∀ (step : WriteStep) (w : Writer),
    step.carryOut w = w.perform step
  | .tag field wireType, w => by
    rw [WriteStep.carryOut, Writer.perform, WriteStep.bytes, Writer.putKey, recordBytes]
    cases hkey : FieldKey.encode ⟨field, wireType⟩ with
    | error m => simp only
    | ok key => simp only [Writer.put, List.append_nil]
  | .payload bytes, w => by
    simp only [WriteStep.carryOut, Writer.perform, WriteStep.bytes, Writer.put]
  | .scalar field k v, w => by
    rw [WriteStep.carryOut, Writer.perform, WriteStep.bytes, Writer.putRecord_eq,
      List.flatten_singleton]
    cases recordBytes field k.wireType (k.put v) <;> rfl
  | .packed field k vs, w => by
    have content : (Writer.putAll {} (vs.map k.put)).written = k.pack vs := by
      rw [Writer.putAll_eq, Writer.put, List.nil_append, Scalar.pack, List.flatMap_def]
    rw [WriteStep.carryOut, Writer.perform, WriteStep.bytes, Writer.putWriter_eq, content]
    cases recordBytes field .delimited (delimit (k.pack vs)) <;> rfl
  | .nested field body, w => by
    rw [WriteStep.carryOut, Writer.perform, WriteStep.bytes, carryOutAll_eq_performAll body {}]
    cases hbody : bodyBytes body with
    | error m =>
      -- How far the body came is forgotten with the writer that it was put into.
      have failed := Writer.performAll_of_bodyBytes_error hbody {}
      split <;> rename_i hperformed <;> rw [hperformed] at failed <;> cases failed
      rfl
    | ok content =>
      simp only [Writer.performAll_of_bodyBytes hbody, Writer.putWriter_eq, List.nil_append]
      cases recordBytes field .delimited (delimit content) <;> rfl

theorem carryOutAll_eq_performAll : ∀ (steps : List WriteStep) (w : Writer),
    carryOutAll steps w = w.performAll steps
  | [], w => by rw [carryOutAll, Writer.performAll]
  | step :: rest, w => by
    rw [carryOutAll, Writer.performAll, step.carryOut_eq_perform w]
    obtain ⟨outcome, w'⟩ := w.perform step
    cases outcome with
    | error m => rfl
    | ok _ => exact carryOutAll_eq_performAll rest w'

end

/-! ## Numbers out of range -/

mutual

/-- The numbers in a step, at any depth, in the order in which their keys are put: those
    of a body before that of the record around it. -/
def WriteStep.numbers : WriteStep → List Nat
  | .tag field _ | .scalar field _ _ | .packed field _ _ => [field]
  | .payload _ => []
  | .nested field body => bodyNumbers body ++ [field]

def bodyNumbers : List WriteStep → List Nat
  | [] => []
  | step :: rest => step.numbers ++ bodyNumbers rest

end

/-- What putting keys with these numbers comes to.  The first number that no field can
    have is the misuse. -/
def Misuse.judge : List Nat → Except Misuse Unit
  | [] => .ok ()
  | n :: rest => if IsFieldNumber n then judge rest else .error (.fieldNumberOutOfRange n)

theorem Misuse.judge_append (front back : List Nat) :
    judge (front ++ back) =
      match judge front with
      | .error m => .error m
      | .ok () => judge back := by
  induction front with
  | nil => rfl
  | cons n front ih =>
    rw [List.cons_append, judge, judge]
    split
    · exact ih
    · rfl

theorem Misuse.judge_eq_ok_iff {numbers : List Nat} :
    judge numbers = .ok () ↔ ∀ n ∈ numbers, IsFieldNumber n := by
  induction numbers with
  | nil => simp [judge]
  | cons n rest ih =>
    rw [judge, List.forall_mem_cons]
    split <;> simp_all

theorem Misuse.judge_eq_error {numbers : List Nat} {m : Misuse} (h : judge numbers = .error m) :
    ∃ front n back, numbers = front ++ n :: back ∧ (∀ x ∈ front, IsFieldNumber x) ∧
      ¬IsFieldNumber n ∧ m = .fieldNumberOutOfRange n := by
  induction numbers with
  | nil => simp [judge] at h
  | cons n rest ih =>
    rw [judge] at h
    split at h
    · rename_i isNumber
      obtain ⟨front, n', back, rfl, before, misuse⟩ := ih h
      exact ⟨n :: front, n', back, rfl, List.forall_mem_cons.2 ⟨isNumber, before⟩, misuse⟩
    · rename_i noNumber
      cases h
      exact ⟨[], n, rest, rfl, by simp, noNumber, rfl⟩

theorem recordBytes_judge (field : Nat) (w : WireType) (payload : Bytes) :
    (recordBytes field w payload).map (fun _ => ()) = Misuse.judge [field] := by
  rw [recordBytes, FieldKey.encode, Misuse.judge, Misuse.judge]
  by_cases isNumber : IsFieldNumber field
  · simp [isNumber, Except.map]
  · simp [isNumber, Except.map]

mutual

/-- Whether a step has bytes is up to its numbers alone. -/
theorem WriteStep.bytes_judge : ∀ step : WriteStep,
    step.bytes.map (fun _ => ()) = Misuse.judge step.numbers
  | .tag .. => by rw [WriteStep.bytes, WriteStep.numbers, recordBytes_judge]
  | .payload _ => by rw [WriteStep.bytes, WriteStep.numbers, Misuse.judge]; rfl
  | .scalar .. => by rw [WriteStep.bytes, WriteStep.numbers, recordBytes_judge]
  | .packed .. => by rw [WriteStep.bytes, WriteStep.numbers, recordBytes_judge]
  | .nested field body => by
    rw [WriteStep.bytes, WriteStep.numbers, Misuse.judge_append, ← bodyBytes_judge body]
    cases bodyBytes body with
    | error m => rfl
    | ok payload => exact recordBytes_judge field .delimited (delimit payload)

theorem bodyBytes_judge : ∀ steps : List WriteStep,
    (bodyBytes steps).map (fun _ => ()) = Misuse.judge (bodyNumbers steps)
  | [] => by rw [bodyBytes, bodyNumbers, Misuse.judge]; rfl
  | step :: rest => by
    rw [bodyBytes, bodyNumbers, Misuse.judge_append, ← step.bytes_judge, ← bodyBytes_judge rest]
    cases step.bytes with
    | error m => rfl
    | ok front => cases bodyBytes rest <;> rfl

end

/-! ## Whole records -/

mutual

/-- `bytes` are all that a step stands for and no more: one complete record with its
    values or, for a step that asks for less, one key or one payload. -/
def WriteStep.Whole : WriteStep → Bytes → Prop
  | .tag field w, bytes => ∀ rest, FieldKey.decode (bytes ++ rest) = (.ok ⟨field, w⟩, rest)
  | .payload p, bytes => bytes = p
  | .scalar field k v, bytes => Record.Formed bytes ⟨field, k.wireType, .ok (k.toPayload v)⟩
  | .packed field k vs, bytes => Record.Formed bytes ⟨field, .delimited, .ok (k.pack vs)⟩
  | .nested field body, bytes =>
    ∃ content, BodyWhole body content ∧ Record.Formed bytes ⟨field, .delimited, .ok content⟩

def BodyWhole : List WriteStep → Bytes → Prop
  | [], bytes => bytes = []
  | step :: rest, bytes =>
    ∃ front back, bytes = front ++ back ∧ step.Whole front ∧ BodyWhole rest back

end

theorem eq_keyed_of_recordBytes {field : Nat} {w : WireType} {payload bytes : Bytes}
    (h : recordBytes field w payload = .ok bytes) :
    IsFieldNumber field ∧ bytes = keyed field w payload := by
  by_cases isNumber : IsFieldNumber field
  · rw [recordBytes_of_isFieldNumber isNumber] at h
    cases h
    exact ⟨isNumber, rfl⟩
  · rw [recordBytes, FieldKey.encode, if_neg isNumber] at h
    cases h

mutual

theorem WriteStep.whole_of_bytes : ∀ {step : WriteStep} {bytes : Bytes},
    step.bytes = .ok bytes → bytes.Addressable → step.Whole bytes
  | .tag field w, bytes, h, _ => by
    rw [WriteStep.bytes] at h
    obtain ⟨isNumber, rfl⟩ := eq_keyed_of_recordBytes h
    rw [WriteStep.Whole]
    intro rest
    rw [keyed, List.append_nil]
    exact FieldKey.decode_append_raw isNumber rest
  | .payload p, bytes, h, _ => by
    rw [WriteStep.bytes] at h
    cases h
    rw [WriteStep.Whole]
  | .scalar field k v, bytes, h, addressable => by
    rw [WriteStep.bytes] at h
    obtain ⟨isNumber, rfl⟩ := eq_keyed_of_recordBytes h
    have value := addressable.of_length_le (Record.length_payload_le_keyed field _ (k.put v))
    rw [WriteStep.Whole]
    exact Record.formed_iff.2 ⟨Record.spelled_scalar isNumber k v value, _, rfl⟩
  | .packed field k vs, bytes, h, addressable => by
    rw [WriteStep.bytes] at h
    obtain ⟨isNumber, rfl⟩ := eq_keyed_of_recordBytes h
    have values := addressable.of_length_le (length_content_le_keyed field (k.pack vs))
    rw [WriteStep.Whole]
    exact Record.formed_delimited isNumber values
  | .nested field body, bytes, h, addressable => by
    rw [WriteStep.bytes] at h
    split at h
    · cases h
    · rename_i content hcontent
      obtain ⟨isNumber, rfl⟩ := eq_keyed_of_recordBytes h
      have inner := addressable.of_length_le (length_content_le_keyed field content)
      rw [WriteStep.Whole]
      exact ⟨content, bodyWhole_of_bodyBytes hcontent inner,
        Record.formed_delimited isNumber inner⟩

theorem bodyWhole_of_bodyBytes : ∀ {steps : List WriteStep} {bytes : Bytes},
    bodyBytes steps = .ok bytes → bytes.Addressable → BodyWhole steps bytes
  | [], bytes, h, _ => by
    rw [bodyBytes] at h
    cases h
    rw [BodyWhole]
  | step :: rest, bytes, h, addressable => by
    rw [bodyBytes] at h
    split at h
    · cases h
    · rename_i front hfront
      split at h
      · cases h
      · rename_i back hback
        cases h
        rw [BodyWhole]
        exact ⟨front, back, rfl,
          WriteStep.whole_of_bytes hfront (addressable.of_length_le (by simp)),
          bodyWhole_of_bodyBytes hback (addressable.of_length_le (by simp))⟩

end

/-! ## All or nothing -/

namespace WriteStep

variable {step : WriteStep} {bytes : Bytes} {m : Misuse}

theorem carryOut_of_bytes (h : step.bytes = .ok bytes) (w : Writer) :
    step.carryOut w = (.ok (), ⟨w.written ++ bytes⟩) := by
  simp only [carryOut_eq_perform, Writer.perform, h]

theorem carryOut_of_bytes_error (h : step.bytes = .error m) (w : Writer) :
    step.carryOut w = (.error m, w) := by
  simp only [carryOut_eq_perform, Writer.perform, h]

theorem numbers_of_bytes (h : step.bytes = .ok bytes) : ∀ n ∈ step.numbers, IsFieldNumber n := by
  have judged := step.bytes_judge
  rw [h] at judged
  exact Misuse.judge_eq_ok_iff.1 judged.symm

/-- The misuse is the first in the order in which keys are put. -/
theorem numbers_of_bytes_error (h : step.bytes = .error m) :
    ∃ front n back, step.numbers = front ++ n :: back ∧ (∀ x ∈ front, IsFieldNumber x) ∧
      ¬IsFieldNumber n ∧ m = .fieldNumberOutOfRange n := by
  have judged := step.bytes_judge
  rw [h] at judged
  exact Misuse.judge_eq_error judged.symm

/-- Whatever a writer holds, a step is a misuse just if some number in it, at whatever
    depth, is none that a field can have.  The first of them is the one reported, and the
    writer holds what it held before.  Any other step adds the same bytes to every writer,
    and they are one complete record. -/
theorem whole_or_nothing (step : WriteStep) :
    (∀ w : Writer, w.perform step = step.carryOut w) ∧
    (∀ w, (∃ m, (step.carryOut w).1 = .error m) ↔ ∃ n ∈ step.numbers, ¬IsFieldNumber n) ∧
    (∀ w m, (step.carryOut w).1 = .error m → (step.carryOut w).2 = w ∧
      ∃ front n back, step.numbers = front ++ n :: back ∧ (∀ x ∈ front, IsFieldNumber x) ∧
        ¬IsFieldNumber n ∧ m = .fieldNumberOutOfRange n) ∧
    ((∀ n ∈ step.numbers, IsFieldNumber n) → ∃ bytes, (bytes.Addressable → step.Whole bytes) ∧
      ∀ w, step.carryOut w = (.ok (), ⟨w.written ++ bytes⟩)) := by
  refine ⟨fun w => (step.carryOut_eq_perform w).symm, ?_⟩
  cases hbytes : step.bytes with
  | error m =>
    obtain ⟨front, n, back, split, before, noNumber, hm⟩ := numbers_of_bytes_error hbytes
    have mem : n ∈ step.numbers := by simp [split]
    refine ⟨fun w => ⟨fun _ => ⟨n, mem, noNumber⟩, fun _ => ⟨m, ?_⟩⟩, fun w m' failed => ?_,
      fun numbers => absurd (numbers n mem) noNumber⟩
    · rw [carryOut_of_bytes_error hbytes]
    · rw [carryOut_of_bytes_error hbytes] at failed ⊢
      cases failed
      exact ⟨rfl, front, n, back, split, before, noNumber, hm⟩
  | ok bytes =>
    have numbers := numbers_of_bytes hbytes
    refine ⟨fun w => ⟨?_, ?_⟩, fun w m failed => ?_,
      fun _ => ⟨bytes, whole_of_bytes hbytes, carryOut_of_bytes hbytes⟩⟩
    · rintro ⟨m, failed⟩
      rw [carryOut_of_bytes hbytes] at failed
      cases failed
    · rintro ⟨n, mem, noNumber⟩
      exact absurd (numbers n mem) noNumber
    · rw [carryOut_of_bytes hbytes] at failed
      cases failed

/-- A lining that has no number, in a hat that has one and whose size was put before. -/
example : (WriteStep.nested 3 [.scalar 1 .sint32 (-7 : Int32), .nested 0 []]).carryOut ⟨[8, 1]⟩ =
    (.error (.fieldNumberOutOfRange 0), ⟨[8, 1]⟩) := by
  cbv

end WriteStep

/-- A writer that was asked for one step after the other until one failed holds what those
    before it stand for, each of them whole, and nothing of the one that failed. -/
theorem carryOutAll_whole (steps : List WriteStep) (w : Writer) :
    ∃ done rest bytes, steps = done ++ rest ∧ (bytes.Addressable → BodyWhole done bytes) ∧
      (carryOutAll steps w).2 = ⟨w.written ++ bytes⟩ ∧
      ((carryOutAll steps w).1 = .ok () ∧ rest = [] ∨
        ∃ m step further, (carryOutAll steps w).1 = .error m ∧ rest = step :: further ∧
          Misuse.judge step.numbers = .error m) := by
  induction steps generalizing w with
  | nil =>
    rw [carryOutAll]
    exact ⟨[], [], [], rfl, fun _ => by rw [BodyWhole], by rw [List.append_nil], .inl ⟨rfl, rfl⟩⟩
  | cons step rest ih =>
    rw [carryOutAll]
    cases hbytes : step.bytes with
    | error m =>
      -- The step that fails writes nothing, not even what stands before its fault.
      rw [WriteStep.carryOut_of_bytes_error hbytes]
      have judged := step.bytes_judge
      rw [hbytes] at judged
      exact ⟨[], step :: rest, [], rfl, fun _ => by rw [BodyWhole], by rw [List.append_nil],
        .inr ⟨m, step, rest, rfl, rfl, judged.symm⟩⟩
    | ok front =>
      rw [WriteStep.carryOut_of_bytes hbytes]
      obtain ⟨done, further, back, rfl, whole, held, outcome⟩ := ih ⟨w.written ++ front⟩
      refine ⟨step :: done, further, front ++ back, rfl, fun addressable => ?_, ?_, outcome⟩
      · rw [BodyWhole]
        exact ⟨front, back, rfl,
          WriteStep.whole_of_bytes hbytes (addressable.of_length_le (by simp)),
          whole (addressable.of_length_le (by simp))⟩
      · rw [held, List.append_assoc]

end Protobuf
