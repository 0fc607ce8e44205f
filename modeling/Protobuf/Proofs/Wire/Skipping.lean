import Protobuf.Proofs.Wire.Session
import Protobuf.Schema.Binary

/-! # Reading and skipping keep in step

A caller that passes over a record and one that reads it go on from the same byte, also
where the payload is malformed, cut off or longer than it need be.

* `Payload.passOver`: passing over a payload by its layout alone.
* `Request.Fits`: the reads for records of one layout.
* `Session.failure?`: why a request failed.
* `Session.ask_of_fits`: all of them take the payload first, and fail if there is none.
* `Session.skip_agrees`: what skipping has in common with each of them, and with moving on
  at once.
-/

namespace Protobuf

def Bytes.advance (count : Nat) (bytes : Bytes) : Except DecodeError Unit × Bytes :=
  if bytes.length < count then (.error .unexpectedEnd, bytes) else (.ok (), bytes.drop count)

namespace Payload

/-- Passes over a payload by its layout alone, without cutting it off. -/
def passOver : WireType → Bytes → Except DecodeError Unit × Bytes
  | .varint, bytes =>
    match Varint.decode .w64 bytes with
    | (.ok _, rest) => (.ok (), rest)
    | (.error e, rest) => (.error e, rest)
  | .fixed64, bytes => bytes.advance 8
  | .delimited, bytes =>
    match decodeLength bytes with
    | (.ok length, rest) => rest.advance length
    | (.error e, rest) => (.error e, rest)
  | .fixed32, bytes => bytes.advance 4
  | .startGroup, bytes | .endGroup, bytes => (.error .deprecatedGroup, bytes)

/-- What is passed over is what is taken. -/
theorem passOver_eq (w : WireType) (bytes : Bytes) :
    passOver w bytes = ((take w bytes).1.map fun _ => (), (take w bytes).2) := by
  cases w with
  | varint =>
    rw [passOver, take]
    obtain ⟨outcome, rest⟩ := Varint.decode .w64 bytes
    cases outcome <;> rfl
  | fixed64 | fixed32 =>
    rw [passOver, take, Bytes.advance, Bytes.split?]
    split
    · rw [if_neg (by omega)]
      rfl
    · rw [if_pos (by omega)]
      rfl
  | delimited =>
    rw [passOver, take]
    cases hlength : decodeLength bytes with
    | mk outcome rest =>
      cases outcome with
      | error e => rfl
      | ok length =>
        -- The length was measured against these bytes before.
        have enough := (decodeLength_eq_ok_iff.1 hlength).2
        simp only [Bytes.advance]
        rw [if_neg (by omega)]
        rfl
  | startGroup | endGroup => rfl

end Payload

/-! ## Reads take the payload first -/

namespace Cursor

variable {c : Cursor} {k : Scalar} {values : List k.Carrier} {fault : CursorFault}

theorem read_snd (c : Cursor) (k : Scalar) : (c.read k).2 = (c.content k.wireType).2 := by
  rw [read]
  split
  · rename_i hcontent
    rw [hcontent]
  · rename_i hcontent
    split <;> rw [hcontent]

theorem read_of_content_error (h : (c.content k.wireType).1 = .error fault) :
    (c.read k).1 = .error fault := by
  rw [read]
  split <;> rename_i hcontent <;> rw [hcontent] at h <;> cases h
  rfl

theorem enter_snd (c : Cursor) : c.enter.2 = (c.content .delimited).2 := by
  rw [enter]
  split
  · rename_i hcontent
    rw [hcontent]
  · rename_i hcontent
    split <;> rw [hcontent]

theorem enter_of_content_error (h : (c.content .delimited).1 = .error fault) :
    c.enter.1 = .error fault := by
  rw [enter]
  split <;> rename_i hcontent <;> rw [hcontent] at h <;> cases h
  rfl

/-- A packed record is read like its content. -/
theorem readRepeated_of_delimited (values : List k.Carrier) (h : c.wireType = .ok .delimited) :
    (c.readRepeated k values).1.2 = (c.content .delimited).2 ∧
      ∀ fault, (c.content .delimited).1 = .error fault →
        (c.readRepeated k values).1.1 = .error fault := by
  simp only [readRepeated, h]
  split
  · rename_i hcontent
    rw [hcontent]
    exact ⟨rfl, fun _ h => by cases h; rfl⟩
  · rename_i hcontent
    rw [hcontent]
    split <;> exact ⟨rfl, fun _ h => by cases h⟩

/-- A record that is not packed is read like a single value. -/
theorem readRepeated_of_ne {w : WireType} (h : c.wireType = .ok w) (single : w ≠ .delimited) :
    (c.readRepeated k values).1 = ((c.read k).1.map fun _ => (), (c.read k).2) := by
  rw [readRepeated]
  split
  · simp_all
  · simp_all
  · split <;> rename_i hread <;> rw [hread] <;> rfl

end Cursor

/-- Words are values of every kind that is laid out as they are. -/
theorem Scalar.exists_ofPayload {k : Scalar} (word : k.wireType ≠ .delimited)
    (p : Payload k.wireType) : ∃ v, k.ofPayload p = .ok v := by
  cases k with
  | string | bytes => exact absurd rfl word
  | _ => exact ⟨_, rfl⟩

/-! ## Requests for one layout -/

def Request.Fits : Request → WireType → Prop
  | .read k, w => k.wireType = w
  | .readRepeated k _, w => k.wireType = w ∨ w = .delimited
  | .nested _, w => w = .delimited
  | .next, _ | .fieldNumber, _ | .wireType, _ | .skip, _ => False

namespace Session

/-- Why a request failed.  What goes wrong in a nested cursor fails the read that opened
    it. -/
def failure? : Except CursorFault Reply → Option CursorFault
  | .error fault => some fault
  | .ok (.nested (.error fault)) => some fault
  | .ok _ => none

variable {s : Session} {key : FieldKey} {consumed : Bool}

theorem ask_of_fits (h : s.cursor.state = .positioned key consumed) {request : Request}
    (fits : request.Fits key.wireType) :
    (s.ask request).2.cursor = (s.cursor.content key.wireType).2 ∧
      ∀ fault, (s.cursor.content key.wireType).1 = .error fault →
        (s.ask request).1 = .error fault := by
  have layout : s.cursor.wireType = .ok key.wireType := by
    rw [Cursor.wireType, Cursor.key, h]
    rfl
  cases request with
  | read k =>
    rw [← show k.wireType = key.wireType from fits, ask]
    refine ⟨s.cursor.read_snd k, fun fault hfault => ?_⟩
    rw [Cursor.read_of_content_error hfault]
    rfl
  | readRepeated k packable =>
    -- The layout of the record decides how its values are read, not what was asked for.
    by_cases hpacked : key.wireType = .delimited
    · rw [hpacked] at layout ⊢
      obtain ⟨left, failed⟩ := Cursor.readRepeated_of_delimited (s.lists k) layout
      rw [ask]
      refine ⟨left, fun fault hfault => ?_⟩
      rw [failed fault hfault]
      rfl
    · have single : k.wireType = key.wireType := fits.resolve_right hpacked
      rw [ask, Cursor.readRepeated_of_ne layout hpacked, ← single]
      refine ⟨s.cursor.read_snd k, fun fault hfault => ?_⟩
      rw [Cursor.read_of_content_error hfault]
      rfl
  | nested use =>
    rw [show key.wireType = .delimited from fits, ask]
    refine ⟨s.cursor.enter_snd, fun fault hfault => ?_⟩
    rw [Cursor.enter_of_content_error hfault]
    rfl
  | next | fieldNumber | wireType | skip => exact fits.elim

theorem ask_skip (h : s.cursor.state = .positioned key consumed) :
    s.ask .skip = ((s.cursor.content key.wireType).1.map fun _ => .done,
      { s with cursor := (s.cursor.content key.wireType).2 }) := by
  rw [ask, Cursor.skip_of_positioned h]
  cases (s.cursor.content key.wireType).1 <;> rfl

/-- Skipping is passing over the payload. -/
theorem ask_skip_passOver (unread : s.cursor.state = .positioned key false) :
    s.ask .skip =
      (((Payload.passOver key.wireType s.cursor.ahead).1.mapError .malformed).map fun _ => .done,
        { s with
          cursor := ⟨(Payload.passOver key.wireType s.cursor.ahead).2, .positioned key true,
            s.cursor.depth⟩ }) := by
  rw [ask_skip unread, Cursor.content_of_positioned unread, Payload.passOver_eq, Cursor.behind]
  cases (Payload.take key.wireType s.cursor.ahead).1 <;> rfl

/-- A word is read wherever there is one. -/
theorem failure?_of_word {request : Request} (h : s.cursor.state = .positioned key consumed)
    (fits : request.Fits key.wireType) (word : key.wireType ≠ .delimited)
    {p : Payload key.wireType} (hcontent : (s.cursor.content key.wireType).1 = .ok p) :
    failure? (s.ask request).1 = none := by
  have single : ∀ k : Scalar, k.wireType = key.wireType → ∃ v, (s.cursor.read k).1 = .ok v := by
    intro k hk
    obtain ⟨p', hp'⟩ : ∃ p', (s.cursor.content k.wireType).1 = .ok p' := by
      rw [hk]
      exact ⟨p, hcontent⟩
    obtain ⟨v, hv⟩ := Scalar.exists_ofPayload (by rwa [hk]) p'
    refine ⟨v, ?_⟩
    rw [Cursor.read]
    split <;> rename_i heq <;> rw [heq] at hp' <;> cases hp'
    rw [hv]
  have layout : s.cursor.wireType = .ok key.wireType := by
    rw [Cursor.wireType, Cursor.key, h]
    rfl
  cases request with
  | read k =>
    obtain ⟨v, hv⟩ := single k fits
    rw [ask, hv]
    rfl
  | readRepeated k packable =>
    obtain ⟨v, hv⟩ := single k (fits.resolve_right word)
    rw [ask, Cursor.readRepeated_of_ne layout word, hv]
    rfl
  | nested use => exact absurd fits word
  | next | fieldNumber | wireType | skip => exact fits.elim

theorem failure?_readBytes (h : s.cursor.state = .positioned key consumed)
    (delimited : key.wireType = .delimited) :
    failure? (s.ask (.read .bytes)).1 = failure? (s.ask .skip).1 := by
  have bytes : key.wireType = Scalar.bytes.wireType := delimited
  rw [ask_skip h, bytes, ask, Cursor.read]
  obtain ⟨outcome, c⟩ := s.cursor.content Scalar.bytes.wireType
  cases outcome <;> rfl

variable {Ref : Type}

def merging (S : Schema Ref) (r : Ref) (m : Message) (inner : Cursor) : Except CursorFault Unit :=
  ((nestedWithin S (nestingLimit + 1 - inner.depth)).merge r inner.ahead m).1.mapError .malformed

/-- Reading a message is one of the nested reads. -/
theorem ask_merging (s : Session) (S : Schema Ref) (r : Ref) (m : Message) :
    failure? (s.ask (.nested (merging S r m))).1 =
        failure? ((s.cursor.readMessage S r m).1.1.map fun _ => .done) ∧
      (s.ask (.nested (merging S r m))).2.cursor = (s.cursor.readMessage S r m).1.2 := by
  simp only [ask, Cursor.enter, Cursor.readMessage]
  obtain ⟨outcome, c⟩ := s.cursor.content .delimited
  cases outcome with
  | error fault => exact ⟨rfl, rfl⟩
  | ok bytes =>
    by_cases deep : nestingLimit < c.depth + 1
    · -- No level is left: there is no cursor to open, nor anything to merge with.
      simp only [if_pos deep, show nestingLimit - c.depth = 0 by omega]
      exact ⟨rfl, rfl⟩
    · simp only [if_neg deep, Except.map, merging, Nat.add_sub_add_right]
      obtain ⟨merged, m'⟩ := (nestedWithin S (nestingLimit - c.depth)).merge r bytes m
      cases merged <;> exact ⟨rfl, rfl⟩

/-- What comes next does not depend on where the cursor takes itself to stand. -/
theorem advance_congr (bytes : Bytes) (depth : Nat) (state state' : CursorState) :
    (Cursor.next.advance ⟨bytes, state, depth⟩).1 = (Cursor.next.advance ⟨bytes, state', depth⟩).1 ∧
      (Cursor.next.advance ⟨bytes, state, depth⟩).2.ahead =
        (Cursor.next.advance ⟨bytes, state', depth⟩).2.ahead := by
  cases bytes with
  | nil => exact ⟨rfl, rfl⟩
  | cons b bs =>
    simp only [Cursor.next.advance]
    split
    · exact ⟨rfl, rfl⟩
    · split <;> exact ⟨rfl, rfl⟩

theorem next_of_skip {c : Cursor} (unread : c.state = .positioned key false)
    (skipped : c.skip.1 = .ok ()) :
    c.skip.2.next.1 = c.next.1 ∧ c.skip.2.next.2.ahead = c.next.2.ahead := by
  obtain ⟨ahead, state, depth⟩ := c
  obtain rfl : state = .positioned key false := unread
  rw [Cursor.skip_of_positioned rfl, Cursor.content_of_positioned rfl] at skipped ⊢
  simp only [Cursor.behind, Cursor.next, Payload.skip_eq] at skipped ⊢
  generalize Payload.take key.wireType ahead = taken at skipped ⊢
  obtain ⟨outcome, rest⟩ := taken
  cases outcome with
  | error e => cases skipped
  | ok p => exact advance_congr rest depth _ _

/-! ## Reading or skipping -/

/-- Skipping looks at the layout of an unread record only.  Still every read of it, whether
    or not it succeeds, leaves the cursor where skipping leaves it, and if it succeeds so
    does skipping.  Reads of words fail if and as skipping fails, and so does the read of
    plain bytes.  Reading a message is one of the nested reads.  Where skipping succeeds,
    moving on behind it finds what moving on at once finds. -/
theorem skip_agrees (unread : s.cursor.state = .positioned key false) :
    s.ask .skip =
      (((Payload.passOver key.wireType s.cursor.ahead).1.mapError .malformed).map fun _ => .done,
        { s with
          cursor := ⟨(Payload.passOver key.wireType s.cursor.ahead).2, .positioned key true,
            s.cursor.depth⟩ }) ∧
    (∀ request, request.Fits key.wireType →
      (s.ask request).2.cursor = (s.ask .skip).2.cursor ∧
        (failure? (s.ask request).1 = none → (s.ask .skip).1 = .ok .done) ∧
        (key.wireType ≠ .delimited → failure? (s.ask request).1 = failure? (s.ask .skip).1)) ∧
    (key.wireType = .delimited →
      failure? (s.ask (.read .bytes)).1 = failure? (s.ask .skip).1) ∧
    (∀ (Ref : Type) (S : Schema Ref) (r : Ref) (m : Message), ∃ use,
      failure? (s.ask (.nested use)).1 =
          failure? ((s.cursor.readMessage S r m).1.1.map fun _ => .done) ∧
        (s.ask (.nested use)).2.cursor = (s.cursor.readMessage S r m).1.2) ∧
    ((s.ask .skip).1 = .ok .done →
      ((s.ask .skip).2.ask .next).1 = (s.ask .next).1 ∧
        ((s.ask .skip).2.ask .next).2.cursor.ahead = (s.ask .next).2.cursor.ahead) := by
  refine ⟨ask_skip_passOver unread, fun request fits => ?_, failure?_readBytes unread,
    fun Ref S r m => ⟨_, ask_merging s S r m⟩, fun skipped => ?_⟩
  · obtain ⟨left, failed⟩ := ask_of_fits unread fits
    rw [ask_skip unread]
    refine ⟨left, fun succeeded => ?_, fun word => ?_⟩
    · cases hcontent : (s.cursor.content key.wireType).1 with
      | error fault =>
        rw [failed fault hcontent] at succeeded
        cases succeeded
      | ok p => rfl
    · cases hcontent : (s.cursor.content key.wireType).1 with
      | error fault =>
        rw [failed fault hcontent]
        rfl
      | ok p =>
        rw [failure?_of_word unread fits word hcontent]
        rfl
  · have passed : s.cursor.skip.1 = .ok () := by
      simp only [ask] at skipped
      cases hskip : s.cursor.skip.1 with
      | error fault =>
        rw [hskip] at skipped
        cases skipped
      | ok _ => rfl
    obtain ⟨same, left⟩ := next_of_skip unread passed
    simp only [ask]
    exact ⟨by rw [same], left⟩

def brokenSizes : Session :=
  ⟨⟨[3, 1, 4, 128, 8, 5], .positioned ⟨7, .delimited⟩ false, 0⟩, fun _ => []⟩

theorem skip_agrees_brokenSizes :
    brokenSizes.cursor.state = .positioned ⟨7, .delimited⟩ false ∧
      Request.Fits (.readRepeated .sint32 rfl) .delimited ∧
      failure? (brokenSizes.ask (.readRepeated .sint32 rfl)).1 =
        some (.malformed .unexpectedEnd) ∧
      (brokenSizes.ask (.readRepeated .sint32 rfl)).2.cursor =
        (brokenSizes.ask .skip).2.cursor ∧
      ((brokenSizes.ask .skip).2.ask .next).1 = (brokenSizes.ask .next).1 := by
  have unread : brokenSizes.cursor.state = .positioned ⟨7, .delimited⟩ false := rfl
  have fits : Request.Fits (.readRepeated .sint32 rfl) .delimited := .inr rfl
  obtain ⟨-, reads, -, -, moves⟩ := skip_agrees unread
  refine ⟨unread, fits, ?_, (reads _ fits).1, (moves rfl).1⟩
  decide +kernel

end Session

end Protobuf
