import Protobuf.Wire.Cursor

/-! # What a cursor can do

A cursor moves on to the next record, or it takes the payload of the record that it stands on.
What is ahead of it afterwards is an end of what was.

* `CursorFault.IsRefusal`: the faults of requests that leave a cursor as it was.
* `Cursor.Moves`: what moving on can lead to.
* `Cursor.Takes`: what taking a payload can lead to, whatever is made of it.
-/

namespace Protobuf

/-- Skipping takes a payload, whatever it is, and forgets it. -/
theorem Payload.skip_eq (w : WireType) (bytes : Bytes) :
    skip w bytes = ((take w bytes).1.map fun _ => (), (take w bytes).2) := by
  rw [skip]
  split <;> rename_i htake <;> rw [htake] <;> rfl

/-- Content is a part of the input, and stands behind its length. -/
theorem Payload.infix_of_take {bytes content rest : Bytes}
    (h : take .delimited bytes = (.ok content, rest)) :
    content <:+: bytes ∧ content.length < bytes.length := by
  rw [take] at h
  split at h
  · rename_i length tail hlength
    cases h
    have onward := decodeLength_suffix bytes
    rw [hlength] at onward
    have shorter := Varint.decode_length_lt (decodeLength_eq_ok_iff.1 hlength).1
    refine ⟨(List.take_prefix length tail).isInfix.trans onward.isInfix, ?_⟩
    rw [List.length_take]
    omega
  · cases h

/-! ## Which faults are refusals -/

def DecodeError.IsMismatch : DecodeError → Prop
  | .wireTypeMismatch .. => True
  | _ => False

/-- A cursor refuses what is asked of it if it stands on no unread record, or on one that
    is laid out differently. -/
def CursorFault.IsRefusal : CursorFault → Prop
  | .misuse _ => True
  | .malformed e => e.IsMismatch

theorem Varint.not_isMismatch_of_decodeWithin {w : Width} {left : Nat} {bytes rest : Bytes}
    {e : DecodeError} (h : decodeWithin w left bytes = (.error e, rest)) : ¬e.IsMismatch := by
  induction left generalizing bytes with
  | zero =>
    cases h
    exact id
  | succ left ih =>
    cases bytes with
    | nil =>
      cases h
      exact id
    | cons b tail =>
      rw [decodeWithin] at h
      split at h
      · cases h
        exact id
      · split at h
        · cases h
        · split at h
          · cases h
          · rename_i hdeeper
            cases h
            exact ih hdeeper

theorem FieldKey.not_isMismatch_of_decode {bytes rest : Bytes} {e : DecodeError}
    (h : decode bytes = (.error e, rest)) : ¬e.IsMismatch := by
  rw [decode] at h
  split at h
  · rename_i hraw
    cases h
    exact Varint.not_isMismatch_of_decodeWithin hraw
  · rename_i raw _ _
    obtain ⟨hkey, -⟩ := Prod.mk.inj h
    rw [ofRaw] at hkey
    split at hkey
    · rename_i hw
      cases hkey
      unfold WireType.ofCode at hw
      split at hw <;> cases hw
      exact id
    · split at hkey <;> cases hkey
      exact id

theorem Payload.not_isMismatch_of_take {w : WireType} {bytes rest : Bytes} {e : DecodeError}
    (h : take w bytes = (.error e, rest)) : ¬e.IsMismatch := by
  cases w with
  | varint =>
    rw [take] at h
    split at h
    · cases h
    · rename_i hraw
      cases h
      exact Varint.not_isMismatch_of_decodeWithin hraw
  | fixed64 | fixed32 =>
    rw [take] at h
    split at h <;> cases h
    exact id
  | delimited =>
    rw [take] at h
    split at h
    · cases h
    · rename_i hlength
      cases h
      rw [decodeLength] at hlength
      split at hlength
      · rename_i hraw
        cases hlength
        exact Varint.not_isMismatch_of_decodeWithin hraw
      · split at hlength <;> cases hlength
        exact id
  | startGroup | endGroup =>
    cases h
    exact id

theorem Scalar.not_isMismatch_of_ofPayload {k : Scalar} {p : Payload k.wireType} {e : DecodeError}
    (h : k.ofPayload p = .error e) : ¬e.IsMismatch := by
  cases k with
  | string =>
    rw [ofPayload] at h
    split at h <;> cases h
    exact id
  | _ => cases h

theorem Scalar.not_isMismatch_of_unpack {k : Scalar} {bytes : Bytes} {vs : List k.Carrier}
    {e : DecodeError} (h : k.unpack bytes = (.error e, vs)) : ¬e.IsMismatch := by
  fun_induction k.unpack bytes generalizing vs with
  | case1 => cases h
  | case2 b bs e' rest htake =>
    cases h
    rw [take] at htake
    split at htake
    · rename_i hpayload
      cases htake
      exact Payload.not_isMismatch_of_take hpayload
    · exact not_isMismatch_of_ofPayload (Prod.mk.inj htake).1
  | case3 b bs v rest htake outcome values hvs ih =>
    cases h
    exact ih hvs

/-! ## Moving on -/

namespace Cursor

inductive Moves (c : Cursor) : Except DecodeError Bool × Cursor → Prop
  | further {key : FieldKey} {rest : Bytes} (onward : rest <:+ c.ahead)
    (shorter : rest.length < c.ahead.length) :
    Moves c (.ok true, ⟨rest, .positioned key false, c.depth⟩)
  | ended {rest : Bytes} (onward : rest <:+ c.ahead) :
    Moves c (.ok false, ⟨rest, .exhausted, c.depth⟩)
  /-- The cursor does not notice that it stands on no record any more. -/
  | failed {e : DecodeError} {rest : Bytes} (onward : rest <:+ c.ahead)
    (reason : ¬e.IsMismatch) : Moves c (.error e, ⟨rest, c.state, c.depth⟩)

theorem next_of_exhausted {c : Cursor} (h : c.state = .exhausted) : c.next = (.ok false, c) := by
  simp only [next, h]

theorem moves_advance (c : Cursor) : c.Moves (next.advance c) := by
  obtain ⟨_ | ⟨b, bs⟩, state, depth⟩ := c
  · exact .ended (List.suffix_refl _)
  · have onward := FieldKey.decode_suffix (b :: bs)
    simp only [next.advance]
    split
    · rename_i hkey
      rw [hkey] at onward
      exact .failed onward (FieldKey.not_isMismatch_of_decode hkey)
    · rename_i key rest hkey
      rw [hkey] at onward
      split
      · exact .failed onward id
      · exact .further onward (FieldKey.decode_length_lt hkey)

/-- Moving on from further ahead is moving on. -/
theorem Moves.of_suffix {c : Cursor} {rest : Bytes} (onward : rest <:+ c.ahead)
    {moved : Except DecodeError Bool × Cursor} (h : Moves { c with ahead := rest } moved) :
    c.Moves moved := by
  cases h with
  | further beyond shorter =>
    exact .further (beyond.trans onward) (Nat.lt_of_lt_of_le shorter onward.length_le)
  | ended beyond => exact .ended (beyond.trans onward)
  | failed beyond reason => exact .failed (beyond.trans onward) reason

theorem moves_next (c : Cursor) : c.Moves c.next := by
  obtain ⟨ahead, state, depth⟩ := c
  cases state with
  | notStarted => exact moves_advance _
  | exhausted => exact .ended (List.suffix_refl _)
  | positioned key consumed =>
    cases consumed with
    | true => exact moves_advance _
    | false =>
      -- The payload that was not read is passed over first.
      have onward := Payload.take_suffix key.wireType ahead
      simp only [next, Payload.skip_eq]
      cases htake : Payload.take key.wireType ahead with
      | mk outcome rest =>
        rw [htake] at onward
        cases outcome with
        | error e => exact .failed onward (Payload.not_isMismatch_of_take htake)
        | ok p => exact (moves_advance _).of_suffix onward

theorem next_length_lt {c c' : Cursor} (h : c.next = (.ok true, c')) :
    c'.ahead.length < c.ahead.length := by
  have moves := c.moves_next
  rw [h] at moves
  cases moves with
  | further _ shorter => exact shorter

/-! ## Taking payloads -/

def behind (c : Cursor) (key : FieldKey) : Cursor :=
  ⟨(Payload.take key.wireType c.ahead).2, .positioned key true, c.depth⟩

theorem content_of_positioned {c : Cursor} {key : FieldKey}
    (unread : c.state = .positioned key false) :
    c.content key.wireType =
      ((Payload.take key.wireType c.ahead).1.mapError .malformed, c.behind key) := by
  obtain ⟨ahead, state, depth⟩ := c
  obtain rfl : state = .positioned key false := unread
  simp only [content, begin, if_true, behind]
  split <;> rename_i htake <;> rw [htake] <;> rfl

/-- A payload is refused, or the cursor stands on it. -/
theorem content_cases (c : Cursor) (w : WireType) :
    (∃ fault, CursorFault.IsRefusal fault ∧ c.content w = (.error fault, c)) ∨
      ∃ key, c.state = .positioned key false ∧ key.wireType = w := by
  obtain ⟨ahead, state, depth⟩ := c
  cases state with
  | notStarted | exhausted => exact .inl ⟨.misuse .notPositioned, trivial, rfl⟩
  | positioned key consumed =>
    cases consumed with
    | true => exact .inl ⟨.misuse (.alreadyRead key.number), trivial, rfl⟩
    | false =>
      by_cases h : key.wireType = w
      · exact .inr ⟨key, rfl, h⟩
      · refine .inl ⟨.malformed (.wireTypeMismatch key.number w key.wireType), trivial, ?_⟩
        simp only [content, begin, if_neg h]

theorem take_of_content {c c' : Cursor} {w : WireType} {p : Payload w}
    (h : c.content w = (.ok p, c')) : ∃ rest, Payload.take w c.ahead = (.ok p, rest) := by
  obtain ⟨fault, -, hfault⟩ | ⟨key, unread, rfl⟩ := c.content_cases w
  · cases hfault.symm.trans h
  · rw [content_of_positioned unread] at h
    cases htake : (Payload.take key.wireType c.ahead).1 with
    | error e =>
      rw [htake] at h
      cases h
    | ok p' =>
      rw [htake] at h
      cases h
      exact ⟨_, Prod.ext htake rfl⟩

/-- What reading the payload of the current record can lead to: the request is refused and
    leaves the cursor as it was, or the payload is taken. -/
inductive Takes {α : Type} (c : Cursor) : Outcome α → Prop
  | refused {fault : CursorFault} (refusal : fault.IsRefusal) : Takes c (.error fault, c)
  | taken {key : FieldKey} {outcome : Except CursorFault α}
    (unread : c.state = .positioned key false)
    (accepted : ∀ fault, outcome = .error fault → ¬fault.IsRefusal) :
    Takes c (outcome, c.behind key)

theorem Takes.suffix {α : Type} {c : Cursor} {outcome : Outcome α} (h : c.Takes outcome) :
    outcome.2.ahead <:+ c.ahead := by
  cases h with
  | refused => exact List.suffix_refl _
  | taken => exact Payload.take_suffix _ _

/-- What is made of a value that was read is no matter to the cursor. -/
theorem Takes.map {α β : Type} {c : Cursor} {outcome : Outcome α} (h : c.Takes outcome)
    (f : α → β) : c.Takes (outcome.1.map f, outcome.2) := by
  cases h with
  | refused refusal => exact .refused refusal
  | @taken key outcome unread accepted =>
    refine .taken unread fun fault hfault => ?_
    cases outcome with
    | error fault' => exact accepted fault (by simpa [Except.map] using hfault)
    | ok a => cases hfault

theorem takes_content (c : Cursor) (w : WireType) : c.Takes (c.content w) := by
  obtain ⟨fault, refusal, h⟩ | ⟨key, unread, rfl⟩ := c.content_cases w
  · rw [h]
    exact .refused refusal
  · rw [content_of_positioned unread]
    refine .taken unread fun fault hfault => ?_
    cases htake : (Payload.take key.wireType c.ahead).1 with
    | error e =>
      rw [htake] at hfault
      cases hfault
      exact Payload.not_isMismatch_of_take (Prod.ext htake rfl)
    | ok p =>
      rw [htake] at hfault
      cases hfault

theorem Takes.of_content_error {α : Type} {c c' : Cursor} {w : WireType} {fault : CursorFault}
    (h : c.content w = (.error fault, c')) : c.Takes ((.error fault, c') : Outcome α) := by
  have takes := takes_content c w
  rw [h] at takes
  cases takes with
  | refused refusal => exact .refused refusal
  | taken unread accepted =>
    refine .taken unread fun fault' hfault => ?_
    cases hfault
    exact accepted _ rfl

/-- Content that was taken may still not be what was asked for. -/
theorem Takes.of_content_ok {α : Type} {c c' : Cursor} {w : WireType} {p : Payload w}
    (h : c.content w = (.ok p, c')) {outcome : Except CursorFault α}
    (accepted : ∀ fault, outcome = .error fault → ¬fault.IsRefusal) : c.Takes (outcome, c') := by
  have takes := takes_content c w
  rw [h] at takes
  -- A payload that is refused has no content, so this is the only case.
  cases takes with
  | taken unread _ => exact .taken unread accepted

theorem takes_read (c : Cursor) (k : Scalar) : c.Takes (c.read k) := by
  rw [read]
  split
  · rename_i hcontent
    exact .of_content_error hcontent
  · rename_i hcontent
    split
    · exact .of_content_ok hcontent fun _ h => by cases h
    · rename_i hvalue
      refine .of_content_ok hcontent fun _ h => ?_
      cases h
      exact Scalar.not_isMismatch_of_ofPayload hvalue

theorem takes_enter (c : Cursor) : c.Takes c.enter := by
  rw [enter]
  split
  · rename_i hcontent
    exact .of_content_error hcontent
  · rename_i hcontent
    split
    · refine .of_content_ok hcontent fun _ h => ?_
      cases h
      exact id
    · exact .of_content_ok hcontent fun _ h => by cases h

/-- A cursor that was opened goes over a part of what the outer one has ahead, behind its
    length. -/
theorem ahead_of_enter {c c' inner : Cursor} (h : c.enter = (.ok inner, c')) :
    inner.ahead <:+: c.ahead ∧ inner.ahead.length < c.ahead.length := by
  rw [enter] at h
  split at h
  · cases h
  · rename_i bytes c₁ hcontent
    split at h
    · cases h
    · cases h
      obtain ⟨rest, htake⟩ := take_of_content hcontent
      exact Payload.infix_of_take htake

theorem takes_readRepeated (c : Cursor) (k : Scalar) (values : List k.Carrier) :
    c.Takes (c.readRepeated k values).1 := by
  rw [readRepeated]
  split
  · exact .refused trivial
  · split
    · rename_i hcontent
      exact .of_content_error hcontent
    · rename_i hcontent
      split
      · exact .of_content_ok hcontent fun _ h => by cases h
      · rename_i hunpack
        refine .of_content_ok hcontent fun _ h => ?_
        cases h
        exact Scalar.not_isMismatch_of_unpack hunpack
  · have single := (takes_read c k).map fun _ => ()
    split <;> rename_i hread <;> rw [hread] at single <;> exact single

/-- A record that is refused adds nothing to the list. -/
theorem readRepeated_of_isRefusal {c : Cursor} {k : Scalar} {values : List k.Carrier}
    {fault : CursorFault} (h : (c.readRepeated k values).1.1 = .error fault)
    (refusal : fault.IsRefusal) : (c.readRepeated k values).2 = values := by
  revert h
  rw [readRepeated]
  split
  · exact fun _ => rfl
  · split
    · exact fun _ => rfl
    · split
      · exact fun h => by cases h
      · rename_i hunpack
        intro h
        cases h
        exact absurd refusal (Scalar.not_isMismatch_of_unpack hunpack)
  · split
    · exact fun h => by cases h
    · exact fun _ => rfl

theorem skip_of_positioned {c : Cursor} {key : FieldKey} {consumed : Bool}
    (h : c.state = .positioned key consumed) :
    c.skip = ((c.content key.wireType).1.map fun _ => (), (c.content key.wireType).2) := by
  have hkey : c.key = .ok key := by rw [Cursor.key, h]
  simp only [skip, hkey, content, Payload.skip_eq]
  cases c.begin key.wireType with
  | error fault => rfl
  | ok c' =>
    dsimp only
    obtain ⟨outcome, rest⟩ := Payload.take key.wireType c'.ahead
    cases outcome <;> rfl

theorem takes_skip (c : Cursor) : c.Takes c.skip := by
  cases hstate : c.state with
  | notStarted | exhausted =>
    have hkey : c.key = .error .notPositioned := by rw [Cursor.key, hstate]
    simp only [skip, hkey]
    exact .refused trivial
  | positioned key consumed =>
    rw [skip_of_positioned hstate]
    exact (takes_content c key.wireType).map _

end Cursor

end Protobuf
