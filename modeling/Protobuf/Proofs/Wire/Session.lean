import Mathlib.Logic.Function.Basic
import Protobuf.Proofs.Steps
import Protobuf.Proofs.Wire.Moving

/-! # A cursor in use

A caller asks one thing after the other of a cursor and goes on after failures.  Whatever
was asked before, the cursor goes through its bytes and never back; a request that it
refuses leaves no trace; and behind the last record it stays for good.

* `Session`, `Request`, `Reply`: a cursor in use, what can be asked of it, and what it
  answers.  `Session.ask` asks once, `Session.askAll` many times.
* `Session.Serves`: what any request can lead to but moving on.
* `Session.never_back`: what every request keeps, and every run of them.
-/

namespace Protobuf

/-- A cursor in use, and the lists that its caller reads the values of repeated fields
    onto. -/
structure Session where
  cursor : Cursor
  lists : (k : Scalar) → List k.Carrier

inductive Request
  | next
  | fieldNumber
  | wireType
  | read (k : Scalar)
  | readRepeated (k : Scalar) (packable : k.isPackable)
  /-- Opens a cursor over the payload, and does something with it that may fail. -/
  | nested (use : Cursor → Except CursorFault Unit)
  | skip

inductive Reply
  | moved (further : Bool)
  | number (number : Nat)
  | layout (wireType : WireType)
  | value (k : Scalar) (v : k.Carrier)
  | nested (outcome : Except CursorFault Unit)
  | done

namespace Session

def ask (s : Session) : Request → Except CursorFault Reply × Session
  | .next =>
    ((s.cursor.next.1.mapError .malformed).map .moved, { s with cursor := s.cursor.next.2 })
  | .fieldNumber => ((s.cursor.fieldNumber.mapError .misuse).map .number, s)
  | .wireType => ((s.cursor.wireType.mapError .misuse).map .layout, s)
  | .read k => ((s.cursor.read k).1.map (.value k), { s with cursor := (s.cursor.read k).2 })
  | .readRepeated k _ =>
    let answer := s.cursor.readRepeated k (s.lists k)
    (answer.1.1.map fun _ => .done, ⟨answer.1.2, Function.update s.lists k answer.2⟩)
  | .nested use =>
    (s.cursor.enter.1.map fun inner => .nested (use inner), { s with cursor := s.cursor.enter.2 })
  | .skip => (s.cursor.skip.1.map fun _ => .done, { s with cursor := s.cursor.skip.2 })

def askAll (s : Session) : List Request → List (Request × Except CursorFault Reply) × Session
  | [] => ([], s)
  | request :: rest =>
    let later := (s.ask request).2.askAll rest
    ((request, (s.ask request).1) :: later.1, later.2)

/-! ## What a request can lead to -/

inductive Serves (s : Session) : Except CursorFault Reply × Session → Prop
  | told {reply : Reply} : Serves s (.ok reply, s)
  | refused {fault : CursorFault} (refusal : fault.IsRefusal) : Serves s (.error fault, s)
  | taken {key : FieldKey} {outcome : Except CursorFault Reply}
    {lists : (k : Scalar) → List k.Carrier} (unread : s.cursor.state = .positioned key false)
    (accepted : ∀ fault, outcome = .error fault → ¬fault.IsRefusal) :
    Serves s (outcome, ⟨s.cursor.behind key, lists⟩)

theorem serves_of_takes {α : Type} {s : Session} {outcome : Cursor.Outcome α}
    (h : s.cursor.Takes outcome) (reply : α → Reply) :
    s.Serves (outcome.1.map reply, { s with cursor := outcome.2 }) := by
  have mapped := h.map reply
  generalize outcome.1.map reply = answer at mapped ⊢
  generalize outcome.2 = c at mapped ⊢
  cases mapped with
  | refused refusal => exact .refused refusal
  | taken unread accepted => exact .taken unread accepted

theorem serves_of_told {α : Type} {s : Session} (outcome : Except Misuse α) (reply : α → Reply) :
    s.Serves ((outcome.mapError .misuse).map reply, s) := by
  cases outcome with
  | ok a => exact .told
  | error m => exact .refused trivial

theorem serves_readRepeated (s : Session) (k : Scalar) (packable : k.isPackable) :
    s.Serves (s.ask (.readRepeated k packable)) := by
  have takes := s.cursor.takes_readRepeated k (s.lists k)
  have kept := @Cursor.readRepeated_of_isRefusal s.cursor k (s.lists k)
  rw [ask]
  generalize s.cursor.readRepeated k (s.lists k) = answer at takes kept ⊢
  obtain ⟨⟨outcome, c⟩, values⟩ := answer
  cases takes with
  | refused refusal =>
    have hvalues : values = s.lists k := kept rfl refusal
    rw [hvalues, Function.update_eq_self]
    exact .refused refusal
  | taken unread accepted =>
    refine .taken unread fun fault hfault => ?_
    cases outcome with
    | ok a => cases hfault
    | error fault' => exact accepted fault (by simpa [Except.map] using hfault)

theorem ask_cases (s : Session) (request : Request) :
    request = .next ∨ s.Serves (s.ask request) := by
  cases request with
  | next => exact .inl rfl
  | fieldNumber => exact .inr (serves_of_told _ _)
  | wireType => exact .inr (serves_of_told _ _)
  | read k => exact .inr (serves_of_takes (s.cursor.takes_read k) _)
  | readRepeated k packable => exact .inr (s.serves_readRepeated k packable)
  | nested use => exact .inr (serves_of_takes s.cursor.takes_enter _)
  | skip => exact .inr (serves_of_takes s.cursor.takes_skip _)

theorem eq_next_of_moved {s : Session} {request : Request} {further : Bool}
    (h : (s.ask request).1 = .ok (.moved further)) : request = .next := by
  cases request with
  | next => rfl
  | _ =>
    -- The other requests have replies of their own.
    obtain ⟨_, -, hreply⟩ := map_eq_ok.1 h
    cases hreply

/-! ## What every request keeps -/

theorem ask_suffix (s : Session) (request : Request) :
    (s.ask request).2.cursor.ahead <:+ s.cursor.ahead := by
  obtain rfl | serves := s.ask_cases request
  · have moves := s.cursor.moves_next
    rw [ask]
    generalize s.cursor.next = moved at moves ⊢
    cases moves <;> assumption
  · generalize s.ask request = answer at serves ⊢
    cases serves with
    | told | refused => exact List.suffix_refl _
    | taken => exact Payload.take_suffix _ _

/-- A record that was met has taken a byte at least. -/
theorem ask_length_lt {s : Session} {request : Request}
    (h : (s.ask request).1 = .ok (.moved true)) :
    (s.ask request).2.cursor.ahead.length < s.cursor.ahead.length := by
  obtain rfl := eq_next_of_moved h
  have moves := s.cursor.moves_next
  rw [ask] at h ⊢
  generalize s.cursor.next = moved at moves h ⊢
  cases moves with
  | further _ shorter => exact shorter
  | ended => cases h
  | failed => cases h

theorem ask_of_isRefusal {s : Session} {request : Request} {fault : CursorFault}
    (h : (s.ask request).1 = .error fault) (refusal : fault.IsRefusal) :
    (s.ask request).2 = s := by
  obtain rfl | serves := s.ask_cases request
  · have moves := s.cursor.moves_next
    rw [ask] at h
    generalize s.cursor.next = moved at moves h
    cases moves with
    | further => cases h
    | ended => cases h
    | failed _ reason =>
      -- A move takes what it fails on, and fails for other reasons than refusals.
      cases h
      exact absurd refusal reason
  · generalize s.ask request = answer at serves h ⊢
    cases serves with
    | told => rfl
    | refused => rfl
    | taken _ accepted => exact absurd refusal (accepted fault h)

theorem state_of_ended {s : Session} {request : Request}
    (h : (s.ask request).1 = .ok (.moved false)) : (s.ask request).2.cursor.state = .exhausted := by
  obtain rfl := eq_next_of_moved h
  have moves := s.cursor.moves_next
  rw [ask] at h ⊢
  generalize s.cursor.next = moved at moves h ⊢
  cases moves with
  | further => cases h
  | ended => rfl
  | failed => cases h

theorem ask_of_exhausted {s : Session} (h : s.cursor.state = .exhausted) (request : Request) :
    (s.ask request).2.cursor.state = .exhausted ∧
      (request = .next → (s.ask request).1 = .ok (.moved false)) := by
  obtain rfl | serves := s.ask_cases request
  · rw [ask, Cursor.next_of_exhausted h]
    exact ⟨h, fun _ => rfl⟩
  · refine ⟨?_, ?_⟩
    · generalize s.ask request = answer at serves ⊢
      cases serves with
      | told | refused => exact h
      | taken unread => cases unread.symm.trans h
    · rintro rfl
      rw [ask, Cursor.next_of_exhausted h]
      rfl

/-! ## What runs keep -/

theorem askAll_suffix (s : Session) (requests : List Request) :
    (s.askAll requests).2.cursor.ahead <:+ s.cursor.ahead := by
  induction requests generalizing s with
  | nil => exact List.suffix_refl _
  | cons request rest ih => exact (ih _).trans (s.ask_suffix request)

def recordsMet (history : List (Request × Except CursorFault Reply)) : Nat :=
  history.countP fun entry => match entry.2 with
    | .ok (.moved true) => true
    | _ => false

theorem recordsMet_askAll_le (s : Session) (requests : List Request) :
    recordsMet (s.askAll requests).1 + (s.askAll requests).2.cursor.ahead.length ≤
      s.cursor.ahead.length := by
  induction requests generalizing s with
  | nil => simp [askAll, recordsMet]
  | cons request rest ih =>
    have later := ih (s.ask request).2
    have onward := (s.ask_suffix request).length_le
    rw [askAll]
    simp only [recordsMet, List.countP_cons] at later ⊢
    split
    · rename_i hmoved
      have met : (s.ask request).1 = .ok (.moved true) := by
        split at hmoved <;> simp_all
      -- The byte that the record took is not ahead any more.
      have := ask_length_lt met
      omega
    · omega

theorem askAll_of_exhausted {s : Session} (h : s.cursor.state = .exhausted)
    (requests : List Request) {outcome : Except CursorFault Reply}
    (asked : (.next, outcome) ∈ (s.askAll requests).1) : outcome = .ok (.moved false) := by
  induction requests generalizing s with
  | nil => cases asked
  | cons request rest ih =>
    obtain ⟨still, answer⟩ := ask_of_exhausted h request
    rw [askAll, List.mem_cons] at asked
    obtain hfirst | hlater := asked
    · obtain ⟨rfl, rfl⟩ := Prod.mk.inj hfirst
      exact answer rfl
    · exact ih still hlater

/-- Whatever was asked before, no request and no run of requests lets a cursor go back: what
    is ahead is an end of what was, and shorter behind every record that was met, so that
    no more records are met than there are bytes.  What is refused leaves the cursor and
    the lists as they were.  Once the input has ended this is the answer to every move.  A
    cursor that is opened over a payload has less ahead than the one that it is opened from. -/
theorem never_back (s : Session) :
    (∀ requests, (s.askAll requests).2.cursor.ahead <:+ s.cursor.ahead ∧
      recordsMet (s.askAll requests).1 + (s.askAll requests).2.cursor.ahead.length ≤
        s.cursor.ahead.length) ∧
    (∀ request, (s.ask request).2.cursor.ahead <:+ s.cursor.ahead ∧
      ((s.ask request).1 = .ok (.moved true) →
        (s.ask request).2.cursor.ahead.length < s.cursor.ahead.length) ∧
      (∀ fault, (s.ask request).1 = .error fault → fault.IsRefusal → (s.ask request).2 = s) ∧
      ((s.ask request).1 = .ok (.moved false) →
        ∀ requests outcome, (.next, outcome) ∈ ((s.ask request).2.askAll requests).1 →
          outcome = .ok (.moved false))) ∧
    ∀ inner c, s.cursor.enter = (.ok inner, c) →
      inner.ahead <:+: s.cursor.ahead ∧ inner.ahead.length < s.cursor.ahead.length := by
  refine ⟨fun requests => ⟨s.askAll_suffix requests, s.recordsMet_askAll_le requests⟩,
    fun request => ⟨s.ask_suffix request, ask_length_lt, fun _ => ask_of_isRefusal, ?_⟩,
    fun inner c => Cursor.ahead_of_enter⟩
  intro ended requests outcome
  exact askAll_of_exhausted (state_of_ended ended) requests

end Session

end Protobuf
